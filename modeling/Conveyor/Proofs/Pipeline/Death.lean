import Conveyor.Proofs.Pipeline.Occupancy
import Conveyor.Proofs.Pipeline.Phases

/-!
# When a sink dies

The death of a sink takes the task with it, and with the task the receiving end of the queue. The main
statement is `death_of_reply`: the calls that were made end with the one that the sink died of, nothing
is called or accepted any more, and calls of `stop` return as they always do, the first of them with a
record in the log.

## What tells of the death

The lifecycle does not: a pipeline whose task has died is running until a call of `stop` is issued
(`lifecycle_of_runs`). What tells of it is that the queue is closed although nobody closed it, and, once
a call of `stop` has returned, one record (`Reported`). The call that stops the pipeline is the one
that leaves it, since it waits for the task; whether it has done so can be seen at the lock
(`State.IsSettled`).
-/

namespace Conveyor.Pipeline

variable {σ : Type} {s t u : State σ} {a : Action σ} {as : List (Action σ)}
  {notes new : List (Note σ)}

/-! ### What a dead task leaves -/

/-- A sink dies only when it was called, and the task dies with it. -/
theorem Move.of_died (h : Move s (.step (.reply .died)) t new) :
    ∃ sinks e sink rest, s.task = .calling sinks e sink rest ∧
      t = { s with task := .failed, queue := [] } ∧ new = [.replied sink e .died] := by
  cases h with
  | die calling => exact ⟨_, _, _, _, calling, rfl, rfl⟩
  | reply calling alive => exact absurd rfl alive
  | start begun | passBy begun | close begun | discard begun => simp [State.beginning?] at begun

/-- A task that has died stays so, and calls no sink. -/
theorem Move.of_failed (hs : s.Coupled) (h : Move s a t new) (hfailed : s.task = .failed) :
    t.task = .failed ∧ calls new = [] := by
  cases h with
  | start begun request created => simp [(hs.created created).2.2] at hfailed
  | _ => simp_all

/-- What is so of a task that has died after every run. -/
theorem State.Coupled.failed_of_runs (hs : s.Coupled) (h : Runs State.act s as t notes)
    (hfailed : s.task = .failed) : t.task = .failed ∧ calls notes = [] := by
  refine hs.runs_induction h
    (motive := fun _ t notes ↦ t.task = .failed ∧ calls notes = []) ⟨hfailed, rfl⟩ ?_
  rintro as t notes a u new ht hmove ⟨ihfailed, ihcalls⟩
  obtain ⟨hfailed, hcalls⟩ := hmove.of_failed ht ihfailed
  exact ⟨hfailed, by simp [ihcalls, hcalls]⟩

/-- The queue of a task that is over is closed. -/
theorem State.Coupled.admission_of_isOver (hs : s.Coupled) (hover : s.task.isOver = true) :
    s.admission = .error (.closed queueName) := by
  have hgone := hs.not_receives_of_isOver hover
  simp [State.admission, State.admissionAt, hgone]

/-- Only the call whose turn it is can go on when the task has died, and it returns. -/
theorem Move.returns_of_failed (hturn : InTurn s) {x : Step}
    (h : Move s (.step x) t new) (hfailed : s.task = .failed) :
    x = .resume ∧ ∃ call rest, s.turns.calls = call :: rest ∧ t.turns.calls = rest ∧
      .returned call.id ∈ new := by
  -- A call that was handed the lock finds the pipeline stopped, and has nothing to do.
  have hgranted {call : Call} (hbegun : s.beginning? (.step x) = some call) :
      s.turns.lock = .granted call ∧ s.lifecycle = .stopped ∧ x = .resume := by
    have hlock := State.lock_of_beginning_step hbegun
    refine ⟨hlock, hturn.stopped (by simp [hlock]), ?_⟩
    cases x <;> simp [State.beginning?] at hbegun
    rfl
  cases h with
  | start begun request created => simp [(hgranted begun).2.1] at created
  | close begun request running => simp [(hgranted begun).2.1] at running
  | discard begun request created => simp [(hgranted begun).2.1] at created
  | @passBy _ call begun =>
    obtain ⟨hlock, -, hx⟩ := hgranted begun
    exact ⟨hx, call, s.turns.waiting, by rw [Turns.calls, hlock], Turns.calls_release _, by simp⟩
  | @reportDeath call held =>
    exact ⟨rfl, call, s.turns.waiting, by rw [Turns.calls, held], Turns.calls_release _, by simp⟩
  | pull idle => simp [idle] at hfailed
  | reply calling => simp [calling] at hfailed
  | die calling => simp [calling] at hfailed
  | finish idle => simp [idle] at hfailed
  | finishCall _ ended => simp [ended] at hfailed

/-- The call whose turn it is can go on when the task has died. -/
theorem State.resume_of_failed (hfailed : s.task = .failed) (hbusy : s.turns.lock ≠ .free) :
    ∃ t new, s.step .resume = some (t, new) := by
  cases hlock : s.turns.lock with
  | free => exact absurd hlock hbusy
  | granted call => exact ⟨_, _, by simp only [State.step, hlock]; rfl⟩
  | held call on => exact ⟨_, _, by simp only [State.step, hlock, hfailed]; rfl⟩

/-! ### The record -/

/-- A call that found that the task had died. -/
@[simp] def Note.taskFailed? : Note σ → Option Unit
  | taskFailed => some ()
  | _ => none

/-- The reports of calls that found that the task had died. -/
abbrev reports (notes : List (Note σ)) : List Unit := extract Note.taskFailed? notes

@[simp] theorem reports_callNext (e : Event) (rest : List σ) : reports (callNext e rest) = [] := by
  cases rest <;> rfl

/-- The record about a task that died. -/
def deathRecord : Record := .failure "Log dispatch task failed" []

/-- The records of a history about a task that died. -/
def deathRecords (name : σ → String) (notes : List (Note σ)) : List Record :=
  recordsOf (Note.records name) "Log dispatch task failed" notes

/-- The log has one record for each report. -/
theorem deathRecords_eq (name : σ → String) (notes : List (Note σ)) :
    deathRecords name notes = (reports notes).map fun _ ↦ deathRecord := by
  refine recordsOf_eq_map (fun n ↦ ?_) notes
  cases n with
  | replied sink e r => cases r <;> rfl
  | _ => rfl

/-- The task has died, the pipeline is stopped, and no call waits for the task any more. -/
def State.IsSettled (s : State σ) : Prop :=
  s.task = .failed ∧ s.lifecycle = .stopped ∧ ∀ call, s.turns.lock ≠ .held call ()

/-- The death of the task is reported once, by the call that waited for it. -/
abbrev Reported (s : State σ) (notes : List (Note σ)) : Prop :=
  Once s.IsSettled () (reports notes)

namespace Reported

/-- An action that reports nothing. -/
theorem of_quiet (h : Reported s notes) (hnew : reports new = [])
    (hiff : t.IsSettled ↔ s.IsSettled) : Reported t (notes ++ new) := by
  rw [Reported, reports, extract_append_of_silent hnew]
  exact h.of_iff hiff

/-- An action before and after which the task has not died, or a call waits for it. -/
theorem of_unsettled (h : Reported s notes) (hnew : reports new = []) (hs : ¬s.IsSettled)
    (ht : ¬t.IsSettled) : Reported t (notes ++ new) :=
  h.of_quiet hnew (iff_of_false ht hs)

/-- Every move keeps account of the death. -/
theorem of_move (hs : s.Coupled) (h : Reported s notes) (hmove : Move s a t new) :
    Reported t (notes ++ new) := by
  cases hmove with
  | start begun request created =>
    refine h.of_unsettled (by simp) (fun hsettled ↦ ?_) fun hsettled ↦ ?_
    · simpa [created] using hsettled.2.1
    · simpa using hsettled.1
  | @passBy a call begun =>
    refine h.of_quiet (by simp) (and_congr_right fun _ ↦ and_congr_right fun _ ↦ ?_)
    exact iff_of_true (fun call ↦ s.turns.lock_release_ne_held call ())
      (State.not_held_of_beginning begun)
  | @close a call begun request running =>
    refine h.of_unsettled (by simp) (fun hsettled ↦ ?_) fun hsettled ↦ ?_
    · simpa [running] using hsettled.2.1
    · exact hsettled.2.2 call rfl
  | discard begun request created =>
    have hunborn : s.task = .unborn := (hs.created created).2.2
    refine h.of_unsettled (by simp) (fun hsettled ↦ ?_) fun hsettled ↦ ?_
    · simpa [hunborn] using hsettled.1
    · simpa [hunborn] using hsettled.1
  | @pull sinks e queue idle next =>
    refine h.of_unsettled (by simp) (fun hsettled ↦ ?_) fun hsettled ↦ ?_
    · simpa [idle] using hsettled.1
    · exact Task.turnTo_ne_failed sinks e sinks hsettled.1
  | @reply sinks e sink rest r calling alive =>
    refine h.of_unsettled (by simp) (fun hsettled ↦ ?_) fun hsettled ↦ ?_
    · simpa [calling] using hsettled.1
    · exact Task.turnTo_ne_failed sinks e rest hsettled.1
  | die calling =>
    refine h.of_unsettled (by simp) (fun hsettled ↦ ?_) fun hsettled ↦ ?_
    · simpa [calling] using hsettled.1
    · -- The task was alive, so a call that has stopped the pipeline waits for it.
      obtain ⟨call, hheld⟩ := hs.draining hsettled.2.1 (by simp [calling, Task.isAlive])
      exact hsettled.2.2 call hheld
  | finish idle =>
    refine h.of_unsettled (by simp) (fun hsettled ↦ ?_) fun hsettled ↦ ?_
    · simpa [idle] using hsettled.1
    · simpa using hsettled.1
  | finishCall held ended =>
    refine h.of_unsettled (by simp) (fun hsettled ↦ ?_) fun hsettled ↦ ?_
    · simpa [ended] using hsettled.1
    · simpa [ended] using hsettled.1
  | @reportDeath call held failed =>
    have hsettled : ({ s with turns := s.turns.release } : State σ).IsSettled :=
      ⟨failed, (hs.held call held).1, fun call ↦ s.turns.lock_release_ne_held call ()⟩
    rw [Reported, reports, extract_append]
    exact h.of_now (fun hsettled ↦ hsettled.2.2 call held) hsettled
  | _ => exact h.of_quiet (by simp) Iff.rfl

/-- The account of the death after a run. -/
theorem of_runs (capacity : Nat) (minLevel : Level)
    (h : Runs State.act (State.new capacity minLevel) as t notes) : Reported t notes := by
  refine (State.Coupled.of_new capacity minLevel).runs_induction h
    (motive := fun _ t notes ↦ Reported t notes) ?_ ?_
  · exact ⟨fun hsettled ↦ by simp [State.IsSettled, State.new] at hsettled, fun _ ↦ rfl⟩
  · intro as t notes a u new ht hmove ih
    exact ih.of_move ht hmove

end Reported

/-! ### Calls of `stop` that have returned -/

/-- No call waits inside after a call has returned. -/
theorem Move.not_held_of_returned (h : Move s a t new) {id : Nat} (hreturned : .returned id ∈ new)
    (call : Call) : t.turns.lock ≠ .held call () := by
  cases h with
  | start | passBy | discard | finishCall | reportDeath =>
    exact s.turns.lock_release_ne_held call ()
  | _ => simp at hreturned

/-- No call comes to wait inside when the pipeline is stopped. -/
theorem Move.not_held_of_stopped (h : Move s a t new) (hstopped : s.lifecycle = .stopped)
    (hnone : ∀ call, s.turns.lock ≠ .held call ()) (call : Call) :
    t.turns.lock ≠ .held call () := by
  cases h with
  | @wait issued busy => exact hnone call
  | close begun request running => simp [hstopped] at running
  | start | passBy | discard | finishCall | reportDeath =>
    exact s.turns.lock_release_ne_held call ()
  | _ => exact hnone call

/-- Once a call of `stop` has returned, no call waits inside any more. -/
theorem State.Coupled.not_held_of_returned (hs : s.Coupled) (hfree : s.turns.calls = [])
    (h : Runs State.act s as t notes) {id : Nat} (hid : IsStop as id)
    (hreturned : .returned id ∈ notes) (call : Call) : t.turns.lock ≠ .held call () := by
  induction h generalizing call with
  | refl => exact absurd hreturned List.not_mem_nil
  | @tail as u notes a t new run act_eq ih =>
    have hmove := (hs.of_runs run).move act_eq
    rcases List.mem_append.1 hreturned with hbefore | hnow
    · have hearlier : IsStop as id := fun c hc ↦ hid c (List.mem_append_left _ hc)
      have hdrained := hs.isDrained_of_returned hfree run hearlier hbefore
      exact hmove.not_held_of_stopped hdrained.1 (ih hearlier hbefore) call
    · exact hmove.not_held_of_returned hnow call

/-- The calls to a pipeline whose task has died return one after the other. -/
theorem State.Coupled.exists_resumed (hs : s.Coupled) (hturn : InTurn s)
    (hfailed : s.task = .failed) :
    ∃ t notes, Runs State.act s (List.replicate s.turns.calls.length (.step .resume)) t notes ∧
      t.turns.calls = [] ∧ ∀ call ∈ s.turns.calls, .returned call.id ∈ notes := by
  induction hcalls : s.turns.calls generalizing s with
  | nil => exact ⟨s, [], .refl, hcalls, by simp⟩
  | cons call rest ih =>
    have hbusy : s.turns.lock ≠ .free := fun hfree ↦ by
      simp [hturn.order.calls_eq_nil hfree] at hcalls
    obtain ⟨u, new, hstep⟩ := State.resume_of_failed hfailed hbusy
    have hmove : Move s (.step .resume) u new := hs.move hstep
    obtain ⟨-, first, others, hline, hothers, hreturned⟩ := hmove.returns_of_failed hturn hfailed
    obtain ⟨rfl, rfl⟩ := List.cons.inj (hline.symm.trans hcalls)
    obtain ⟨t, later, hruns, hnone, hlater⟩ :=
      ih (hs.of_move hmove) (hturn.of_move hs hmove) (hmove.of_failed hs hfailed).1 hothers
    have hfirst : Runs State.act s [.step .resume] u new := .single hstep
    refine ⟨t, new ++ later, hfirst.trans hruns, hnone, fun c hc ↦ ?_⟩
    rcases List.mem_cons.1 hc with rfl | hc
    · exact List.mem_append_left _ hreturned
    · exact List.mem_append_right _ (hlater c hc)

/-! ### The statement -/

/-- What is so of the pipeline `start` after a run in which its task died. The actions `before` were
done before the death, and the others are those of `after`. The history up to and including the death
is `past`, and the rest of it is `later`. -/
structure Dead (name : σ → String) (start : State σ) (before after : List (Action σ)) (u : State σ)
    (past later : List (Note σ)) : Prop where
  /-- The calls up to the death are those of the events in order, each offered to every sink, up to
  and including the call that the sink died of. -/
  calls : ∃ done e queued front sink rest,
    start.accepted before = done ++ e :: queued ∧ start.enlisted before = front ++ sink :: rest ∧
      .replied sink e .died ∈ past ∧
      calls past = deliveries (start.enlisted before) done ++ (front ++ [sink]).map (·, e)
  /-- No sink is called after that. -/
  silent : Pipeline.calls later = []
  /-- Every event of at least the minimum level finds the queue closed. -/
  closed : ∀ e, ¬e.level < start.minLevel →
    u.enqueue e = (.error (.closed queueName), u, [.refused e (.closed queueName)])
  /-- Every event below it is accepted and left out. -/
  passed : ∀ e, e.level < start.minLevel → u.enqueue e = (.ok (), u, [.passedOver e])
  /-- The pipeline is running until a call of `stop` is issued. -/
  running : (∀ id, .issue ⟨id, .stop⟩ ∉ before ++ after) → u.lifecycle = .running
  /-- It is stopped as soon as one is. -/
  stopped : (∃ id, .issue ⟨id, .stop⟩ ∈ before ++ after) → u.lifecycle = .stopped
  /-- Every call that was issued has returned or is in line. -/
  waits : ∀ call, .issue call ∈ before ++ after →
    call ∈ u.turns.calls ∨ .returned call.id ∈ past ++ later
  /-- Nothing but the calls in line can go on by itself. -/
  only : ∀ x p, u.step x = some p → x = .resume
  /-- Those return within as many steps as there are of them. With a call of `stop` among all that
  were issued, the log then has one record of the death. -/
  returns : ∃ v last,
    u.run (List.replicate u.turns.calls.length (.step .resume)) = some (v, last) ∧
      v.turns.calls = [] ∧ (∀ call ∈ u.turns.calls, .returned call.id ∈ last) ∧
      ((∃ id, .issue ⟨id, .stop⟩ ∈ before ++ after) →
        deathRecords name (past ++ later ++ last) = [deathRecord])
  /-- The log has this record as soon as a call of `stop` has returned. -/
  reported : ∀ id, IsStop (before ++ after) id → .returned id ∈ past ++ later →
    deathRecords name (past ++ later) = [deathRecord]
  /-- It never has more than one. -/
  once : (deathRecords name (past ++ later)).length ≤ 1

section Statement

variable {capacity : Nat} {minLevel : Level} {before after : List (Action σ)}
  {past now later : List (Note σ)}

/-- The calls that were made when a sink dies end with the one that it dies of. -/
theorem calls_of_died
    (hbefore : Runs State.act (State.new capacity minLevel) before s past)
    (hmove : Move s (.step (.reply .died)) t now) :
    ∃ done e queued front sink rest,
      (State.new capacity minLevel).accepted before = done ++ e :: queued ∧
        (State.new capacity minLevel).enlisted before = front ++ sink :: rest ∧
        .replied sink e .died ∈ past ++ now ∧
        calls (past ++ now) =
          deliveries ((State.new capacity minLevel).enlisted before) done ++
            (front ++ [sink]).map (·, e) := by
  have hnew : (State.new capacity minLevel : State σ).Coupled := .of_new capacity minLevel
  have hs := hnew.of_runs hbefore
  obtain ⟨done, lost, hstock⟩ := Stock.of_runs capacity minLevel hbefore
  obtain ⟨begun, hcalls, hbegun⟩ := hstock.calls
  obtain ⟨sinks, e, sink, rest, hcalling, rfl, rfl⟩ := hmove.of_died
  have hsinks : sinks = s.sinks := hs.sinks sinks (by simp [hcalling, Task.sinks?])
  obtain ⟨front, hfront, rfl⟩ : ∃ front, sinks = front ++ sink :: rest ∧
      begun = (front ++ [sink]).map (·, e) := by simpa [hcalling, Task.HasBegun] using hbegun
  rw [accepted_eq hnew hbefore, enlisted_eq hnew hbefore,
    (Ledger.of_runs capacity minLevel hbefore).sinks]
  refine ⟨done, e, s.queue ++ lost, front, sink, rest, ?_, hsinks ▸ hfront, by simp, ?_⟩
  · simp [hstock.admitted, hcalling, Task.event?]
  · simpa using hcalls

/-- **Death of a sink.** Take a run of a new pipeline in which a sink dies of the call that it was
given, and all that is done before and after that. The calls of sinks end with that call. From then
on every event of at least the minimum level finds the queue closed, whatever was in it, while the
pipeline is running until it is stopped. Every call returns, and the log has one record about the
death once a call of `stop` has returned. -/
theorem death_of_reply (name : σ → String)
    (hbefore : (State.new capacity minLevel).run before = some (s, past))
    (hact : s.act (.step (.reply .died)) = some (t, now))
    (hafter : t.run after = some (u, later)) :
    Dead name (State.new capacity minLevel) before (.step (.reply .died) :: after) u
      (past ++ now) later := by
  have hnew : (State.new capacity minLevel : State σ).Coupled := .of_new capacity minLevel
  have hpast := State.run_iff.1 hbefore
  have hlater := State.run_iff.1 hafter
  have hs : s.Coupled := hnew.of_runs hpast
  have hmove : Move s (.step (.reply .died)) t now := hs.move hact
  have ht : t.Coupled := hs.of_move hmove
  have htfailed : t.task = .failed := by
    obtain ⟨_, _, _, _, -, rfl, -⟩ := hmove.of_died
    rfl
  obtain ⟨hfailed, hsilent⟩ := ht.failed_of_runs hlater htfailed
  have hu : u.Coupled := ht.of_runs hlater
  have hwhole : Runs State.act (State.new capacity minLevel)
      (before ++ .step (.reply .died) :: after) u (past ++ now ++ later) := by
    rw [List.append_cons]
    exact (hpast.tail hact).trans hlater
  have hturn : InTurn u := (InTurn.of_new capacity minLevel).of_runs hnew hwhole
  have hlevel := (bounds_of_runs hnew hwhole).2
  have hstopped := stopped_iff_of_runs hnew (.of_new capacity minLevel) hwhole Lifecycle.noConfusion
  have hreported := Reported.of_runs capacity minLevel hwhole
  have hadmission := hu.admission_of_isOver (by rw [hfailed]; rfl)
  exact {
    calls := calls_of_died hpast hmove
    silent := hsilent
    closed := fun e high ↦ by
      rw [State.enqueue, hlevel, if_neg high, hadmission]
    passed := fun e low ↦ by
      rw [State.enqueue, hlevel, if_pos low]
    running := fun hnone ↦ by
      have hcreated : u.lifecycle ≠ .created := hu.started (by simp [hfailed])
      have hnot : u.lifecycle ≠ .stopped := fun h ↦ by
        obtain ⟨id, hid⟩ := hstopped.1 h
        exact hnone id hid
      cases hlife : u.lifecycle <;> simp_all
    stopped := hstopped.2
    waits := fun call hissued ↦ mem_calls_or_returned hnew hwhole hissued
    only := fun x (v, new) hstep ↦ by
      have hresumes : Move u (.step x) v new := hu.move hstep
      exact (hresumes.returns_of_failed hturn hfailed).1
    returns := by
      obtain ⟨v, last, hruns, hnone, hall⟩ := hu.exists_resumed hturn hfailed
      refine ⟨v, last, State.run_iff.2 hruns, hnone, hall, fun hstop ↦ ?_⟩
      have hsettled : v.IsSettled := by
        refine ⟨(hu.failed_of_runs hruns hfailed).1,
          (hu.stopped_of_runs hruns (hstopped.2 hstop)).1, fun call hheld ↦ ?_⟩
        have hmem := Turns.mem_calls_of_held hheld
        simp [hnone] at hmem
      rw [deathRecords_eq, (Reported.of_runs capacity minLevel (hwhole.trans hruns)).told hsettled]
      rfl
    reported := fun id hid hreturned ↦ by
      have hsettled : u.IsSettled :=
        ⟨hfailed, (hnew.isDrained_of_returned rfl hwhole hid hreturned).1,
          hnew.not_held_of_returned rfl hwhole hid hreturned⟩
      rw [deathRecords_eq, hreported.told hsettled]
      rfl
    once := by
      rw [deathRecords_eq, List.length_map]
      exact hreported.length_le_one }

end Statement

/-- Two of three sinks were given an event, and the queue behind it is full. -/
def sampleFatal : List (Action Nat) :=
  [.register 0, .register 1, .register 2, .issue ⟨0, .start⟩, .enqueue (sampleEvent .info "a"),
    .step .pull, .enqueue (sampleEvent .info "b"), .step (.reply .delivered)]

/-- Two calls of `stop`, of which the first has returned. -/
def sampleAftermath : List (Action Nat) :=
  [.enqueue (sampleEvent .info "c"), .issue ⟨1, .stop⟩, .issue ⟨2, .stop⟩, .step .resume]

theorem death_of_reply_sample : ∃ s past t now u later,
    (State.new 1 .info).run sampleFatal = some (s, past) ∧
      s.act (.step (.reply .died)) = some (t, now) ∧
      t.run sampleAftermath = some (u, later) ∧
      (s.enqueue (sampleEvent .info "c")).1 = .error (.full queueName 1) ∧
      calls (past ++ now) = [(0, sampleEvent .info "a"), (1, sampleEvent .info "a")] ∧
      u.turns.calls = [⟨2, .stop⟩] ∧
      deathRecords toString (past ++ now ++ later) = [deathRecord] ∧
      Dead toString (State.new 1 .info) sampleFatal (.step (.reply .died) :: sampleAftermath) u
        (past ++ now) later := by
  have hruns : ∃ s past t now u later,
      (State.new 1 .info).run sampleFatal = some (s, past) ∧
        s.act (.step (.reply .died)) = some (t, now) ∧
        t.run sampleAftermath = some (u, later) ∧
        (s.enqueue (sampleEvent .info "c")).1 = .error (.full queueName 1) ∧
        calls (past ++ now) = [(0, sampleEvent .info "a"), (1, sampleEvent .info "a")] ∧
        u.turns.calls = [⟨2, .stop⟩] ∧ .returned 1 ∈ past ++ now ++ later :=
    ⟨_, _, _, _, _, _, rfl, rfl, rfl, rfl, rfl, rfl, by decide⟩
  obtain ⟨s, past, t, now, u, later, hbefore, hact, hafter, hfull, hcalls, hline, hreturned⟩ :=
    hruns
  have hdead := death_of_reply toString hbefore hact hafter
  have hstop : IsStop (sampleFatal ++ .step (.reply .died) :: sampleAftermath) 1 := by
    intro call hcall hid
    simp only [sampleFatal, sampleAftermath, List.cons_append, List.nil_append, List.mem_cons,
      Action.issue.injEq, reduceCtorEq, false_or, List.not_mem_nil, or_false] at hcall
    rcases hcall with rfl | rfl | rfl
    · simp at hid
    · rfl
    · rfl
  exact ⟨s, past, t, now, u, later, hbefore, hact, hafter, hfull, hcalls, hline,
    hdead.reported 1 hstop hreturned, hdead⟩

end Conveyor.Pipeline
