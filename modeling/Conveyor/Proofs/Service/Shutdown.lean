import Conveyor.Proofs.Service.Calls
import Conveyor.Proofs.Service.Stream

/-!
# When a shutdown is complete

What is so of a service when a call of `shutdown` or `stop` returns. The main statement is
`finished_iff_of_returned`.

## Two ways to return

A call that comes to the collector first takes the handle and waits until the collector has ended.
The collector ends only when the channel is closed and empty, so by then the pool is stopped and
every verdict is in the store.

A call that finds the handle taken does not wait. If the call that took it still waits, the
collector has not ended, and the service is not finished although a call has returned. That is the
only way, and `finished_iff_of_returned` says so: the return of a call means that the service is
finished if and only if no other call is left that waits for the collector.

A call of `stop` has waited for its own call to the pool before, so whichever way it returns, the
pool is stopped and all its workers have ended.
-/

namespace Conveyor.Moderation.Service

open Time

/-! ### The end of the collector -/

section Ended

variable {policy : Policy} {s t : State} {a : Action} {as : List Action} {notes new : List Note}

/-- The collector ends when the channel is closed and empty, and so it stays. -/
theorem closed_of_ended (hs : s.pool.Coupled) (hreader : s.pool.reader = .taken)
    (hready : s.collector ≠ .ended) (h : Runs (State.act · policy) s as t notes)
    (hended : t.collector = .ended) : t.pool.sends = false ∧ t.pool.channel = [] := by
  refine State.runs_induction hs hreader h
    (motive := fun _ t _ ↦
      t.collector = .ended → t.pool.sends = false ∧ t.pool.channel = [])
    (fun h ↦ absurd h hready) ?_ hended
  intro as t notes a u new ht hchange ih hended
  cases hchange with
  | work onPool acts | returnFromPool onPool acts | turnFromPool onPool acts
  | skipFromPool onPool acts =>
    obtain ⟨hclosed, hempty⟩ := ih hended
    have hread := (ht.change acts).of_closed ht hclosed
    exact ⟨hread.closed, hread.channel_eq_nil hempty⟩
  | finish ready empty closed => exact ⟨closed, empty⟩
  | collect => simp at hended
  | store => simp at hended
  | _ => exact ih hended

end Ended

/-! ### The statement -/

/-- The collector has not ended, and a call waits for it. -/
def State.IsAwaited (s : State) : Prop :=
  s.collector ≠ .ended ∧ ∃ p ∈ s.pending, p.stage = .atCollector

/-- The service `start` has come to its end in a run. Its pool had the history `early` before. -/
structure Finished (policy : Policy) (early : List Pool.Note) (start : State) (as : List Action)
    (s : State) (notes : List Note) : Prop where
  /-- The pool is stopped. -/
  stopped : s.pool.lifecycle = .stopped
  /-- No worker is alive, and nobody else can put a verdict into the channel. -/
  closed : s.pool.sends = false
  /-- The collector has ended. -/
  ended : s.collector = .ended
  /-- Nothing is left in the channel. -/
  empty : s.pool.channel = []
  /-- Every verdict that was ever put into the channel was fetched from the store or is in it. -/
  stored : Pool.kept (early ++ inPool notes) = start.fetched policy as ++ s.store.waiting

section Statement

variable {policy : Policy} {workers capacity : Nat} {before : List Pool.Action} {pool : Pool.State}
  {early : List Pool.Note} {as : List Action} {a : Action} {s t : State} {past now : List Note}

/-- When the collector has ended, the service is finished. -/
theorem finished_of_ended
    (hearly : Runs (Pool.State.act · policy) (.new workers capacity) before pool early)
    (huntaken : pool.reader = .untaken)
    (h : Runs (State.act · policy) (State.ofPool pool).1 as s past)
    (hended : s.collector = .ended) :
    Finished policy early (State.ofPool pool).1 as s past := by
  have hnew : (Pool.State.new workers capacity).Coupled := .of_new workers capacity
  have hs : s.pool.Coupled := hnew.of_runs (pool_runs_of_new hearly huntaken h).2
  have hstart := State.coupled_ofPool (hnew.of_runs hearly) huntaken
  have htaken : (State.ofPool pool).1.pool.reader = .taken := by
    rw [State.ofPool_of_untaken huntaken]
  have hready : (State.ofPool pool).1.collector ≠ .ended := by
    simp [State.ofPool_of_untaken huntaken]
  obtain ⟨hclosed, hempty⟩ := closed_of_ended hstart htaken hready h hended
  have houtlet : s.pool.outlet = false := by
    have hends : s.pool.outlet = false ∧ s.pool.isManned = false := by
      simpa [Pool.State.sends] using hclosed
    exact hends.1
  exact {
    stopped := (hs.outlet houtlet).1
    closed := hclosed
    ended := hended
    empty := hempty
    stored := by
      rw [kept_eq hearly huntaken h, fetched_eq hstart htaken h, hended, hempty]
      simp [Collector.carried] }

/-- A call that waits in the pool with the number of a call of `stop` is a call of `stop` too. -/
theorem request_of_mem_calls
    (hpool : Runs (Pool.State.act · policy) (.new workers capacity)
      (before ++ .takeResults :: as.filterMap Action.mirrored?) s.pool (early ++ inPool past))
    (hnumbers : (Pool.callIds before ++ callIds (as ++ [a])).Nodup) {id : Nat}
    (hissued : .issue id .stop ∈ as ++ [a]) (call : Call) (hcall : call ∈ s.pool.turns.calls)
    (hid : call.id = id) : call.request = .stop := by
  have hnew : (Pool.State.new workers capacity).Coupled := .of_new workers capacity
  have hmem := Pool.issue_mem_of_mem_calls hnew rfl hpool call hcall
  obtain ⟨-, hids, hapart⟩ := List.nodup_append.1 hnumbers
  rcases List.mem_append.1 hmem with hbefore | hlater
  · -- The numbers of earlier calls to the pool are others.
    have hearlier : call.id ∈ Pool.callIds before := List.mem_filterMap.2 ⟨_, hbefore, rfl⟩
    exact absurd hid (hapart _ hearlier _ (mem_callIds hissued))
  · rw [List.mem_cons, List.mem_filterMap] at hlater
    rcases hlater with htake | ⟨x, hx, hmirrored⟩
    · simp at htake
    · obtain ⟨request, rfl, hrequest⟩ := Action.issue_of_mirrored hmirrored
      refine hrequest (request_unique hids (List.mem_append_left _ hx) ?_)
      rw [hid]
      exact hissued

/-- **Shutdown.** Take a service over a pool whose channel was not taken before, and calls that have
a number each. When a call of `shutdown` or `stop` returns, the service is finished if and only if
no other call is left that waits for the collector. It is so when the call has waited for the
collector itself, and a call of `stop` returns only when the pool is stopped and nobody is left to
send. -/
theorem finished_iff_of_returned
    (hbefore : (Pool.State.new workers capacity).run policy before = some (pool, early))
    (huntaken : pool.reader = .untaken)
    (hrun : (State.ofPool pool).1.run policy as = some (s, past))
    (hact : s.act policy a = some (t, now))
    (hnumbers : (Pool.callIds before ++ callIds (as ++ [a])).Nodup)
    {id : Nat} {request : Request} (hissued : .issue id request ∈ as ++ [a])
    (hrequest : request = .shutdown ∨ request = .stop) (hreturned : .returned id ∈ now) :
    (Finished policy early (State.ofPool pool).1 (as ++ [a]) t (past ++ now) ↔ ¬t.IsAwaited) ∧
      (⟨id, .atCollector⟩ ∈ s.pending →
        Finished policy early (State.ofPool pool).1 (as ++ [a]) t (past ++ now)) ∧
      (request = .stop → t.pool.lifecycle = .stopped ∧ t.pool.sends = false) := by
  have hnew : (Pool.State.new workers capacity).Coupled := .of_new workers capacity
  have hearly := Pool.State.run_iff.1 hbefore
  have hruns := State.run_iff.1 hrun
  obtain ⟨hreader, hpool⟩ := pool_runs_of_new hearly huntaken hruns
  have hs : s.pool.Coupled := hnew.of_runs hpool
  have hchange : Change policy s a t now := State.change hs hact
  have hids : (callIds (as ++ [a])).Nodup := (List.nodup_append.1 hnumbers).2.1
  have hwaiting : Waiting as s := by
    have hstart := State.coupled_ofPool (hnew.of_runs hearly) huntaken
    have hbefore : (callIds as).Nodup :=
      hids.sublist ((List.sublist_append_left as [a]).filterMap _)
    refine Waiting.of_runs hstart ?_ ?_ ?_ hruns hbefore
    all_goals rw [State.ofPool_of_untaken huntaken]
  have hended (hended : t.collector = .ended) :
      Finished policy early (State.ofPool pool).1 (as ++ [a]) t (past ++ now) :=
    finished_of_ended hearly huntaken (hruns.tail hact) hended
  refine ⟨⟨fun hfinished hawaited ↦ hawaited.1 hfinished.ended, fun hawaited ↦ ?_⟩,
    fun hjoins ↦ ?_, fun hstop ↦ ?_⟩
  · -- Whoever took the handle waits, unless the collector has ended.
    rcases hwaiting.handle_of_returned hids hchange hissued hrequest hreturned with hover | htaken
    · exact hended hover
    · rcases (hwaiting.of_change hids hchange).handle htaken with hover | hother
      · exact hended hover
      · by_cases hover : t.collector = .ended
        · exact hended hover
        · exact absurd ⟨hover, hother⟩ hawaited
  · exact hended (hwaiting.ended_of_returned hids hchange hjoins hreturned)
  · obtain rfl := hstop
    have hcalls : ∀ call ∈ s.pool.turns.calls, call.id = id → call.request = .stop :=
      request_of_mem_calls hpool hnumbers hissued
    rcases hwaiting.stopped_of_returned hs hids hcalls hchange hissued hreturned with
      hstopped | hover
    · exact hstopped
    · exact ⟨(hended hover).stopped, (hended hover).closed⟩

end Statement

/-- Two calls of `stop` in a row, and the steps of the pool until the first one comes to the
collector. -/
def sampleStops : List Action :=
  [.issue 0 .start, .submit (Pool.sampleJob "a"), .step (.pool (.arrive 0)) .epoch,
    .step (.pool (.pull 0)) .epoch, .step (.pool (.judge 0)) .epoch, .issue 1 .stop, .issue 2 .stop,
    .step (.pool (.arrive 0)) .epoch, .step (.pool (.leave 0)) .epoch, .step (.pool .resume) .epoch,
    .step (.pool .resume) .epoch]

/-- The second call returns while the first one waits for the collector, which has the verdict still
before it. -/
theorem finished_iff_of_returned_sample : ∃ pool early s past t now,
    (Pool.State.new 1 1).run Pool.samplePolicy [] = some (pool, early) ∧
      pool.reader = .untaken ∧
      (State.ofPool pool).1.run Pool.samplePolicy sampleStops = some (s, past) ∧
      s.act Pool.samplePolicy (.step (.pool .resume) .epoch) = some (t, now) ∧
      (Pool.callIds [] ++ callIds (sampleStops ++ [.step (.pool .resume) .epoch])).Nodup ∧
      .issue 2 .stop ∈ sampleStops ++ [.step (.pool .resume) .epoch] ∧
      .returned 2 ∈ now ∧
      t.IsAwaited ∧ t.pool.channel = [Pool.sampleVerdict "a"] ∧
      ¬Finished Pool.samplePolicy early (State.ofPool pool).1
        (sampleStops ++ [.step (.pool .resume) .epoch]) t (past ++ now) ∧
      t.pool.lifecycle = .stopped ∧ t.pool.sends = false := by
  have hruns : ∃ pool early s past t now,
      (Pool.State.new 1 1).run Pool.samplePolicy [] = some (pool, early) ∧
        pool.reader = .untaken ∧
        (State.ofPool pool).1.run Pool.samplePolicy sampleStops = some (s, past) ∧
        s.act Pool.samplePolicy (.step (.pool .resume) .epoch) = some (t, now) ∧
        .returned 2 ∈ now ∧ t.pending = [⟨1, .atCollector⟩] ∧ t.collector = .ready ∧
        t.pool.channel = [Pool.sampleVerdict "a"] :=
    ⟨_, _, _, _, _, _, rfl, rfl, rfl, rfl, by decide, rfl, rfl, rfl⟩
  obtain ⟨pool, early, s, past, t, now, hbefore, huntaken, hrun, hact, hreturned, hpending,
    hready, hchannel⟩ := hruns
  have hnumbers : (Pool.callIds [] ++
      callIds (sampleStops ++ [.step (.pool .resume) .epoch])).Nodup := by decide
  have hissued : .issue 2 .stop ∈ sampleStops ++ [.step (.pool .resume) .epoch] := by
    simp [sampleStops]
  have hawaited : t.IsAwaited := by simp [State.IsAwaited, hpending, hready]
  obtain ⟨hiff, -, hstopped⟩ := finished_iff_of_returned hbefore huntaken hrun hact hnumbers
    hissued (.inr rfl) hreturned
  exact ⟨pool, early, s, past, t, now, hbefore, huntaken, hrun, hact, hnumbers, hissued, hreturned,
    hawaited, hchannel, fun hfinished ↦ hiff.1 hfinished hawaited, hstopped rfl⟩

/-- Two calls of `shutdown` over a pool that nobody has stopped: the first one waits, and the second
one returns. -/
theorem shutdown_before_stop : ∃ s past t now,
    (State.ofPool (Pool.State.new 1 4)).1.run Pool.samplePolicy [.issue 0 .shutdown] =
        some (s, past) ∧
      s.act Pool.samplePolicy (.issue 1 .shutdown) = some (t, now) ∧
      .returned 1 ∈ now ∧ t.pool.lifecycle = .created ∧ t.collector ≠ .ended ∧
      ¬Finished Pool.samplePolicy [] (State.ofPool (Pool.State.new 1 4)).1
        [.issue 0 .shutdown, .issue 1 .shutdown] t (past ++ now) := by
  have hruns : ∃ s past t now,
      (State.ofPool (Pool.State.new 1 4)).1.run Pool.samplePolicy [.issue 0 .shutdown] =
          some (s, past) ∧
        s.act Pool.samplePolicy (.issue 1 .shutdown) = some (t, now) ∧
        .returned 1 ∈ now ∧ t.pool.lifecycle = .created ∧ t.collector = .ready :=
    ⟨_, _, _, _, rfl, rfl, by decide, rfl, rfl⟩
  obtain ⟨s, past, t, now, hrun, hact, hreturned, hcreated, hready⟩ := hruns
  have hended : t.collector ≠ .ended := by simp [hready]
  exact ⟨s, past, t, now, hrun, hact, hreturned, hcreated, hended,
    fun hfinished ↦ hended hfinished.ended⟩

end Conveyor.Moderation.Service
