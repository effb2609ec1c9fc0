import Conveyor.Proofs.Pool.Conservation
import Conveyor.Proofs.Service.Changes

/-!
# The stream of verdicts

The way of a verdict from the worker that gives it to the client that fetches it: through the
channel of the pool, the hand of the collector and the store. The main statement is `stream_of_run`:
what was fetched, what is in the store, what the collector carries and what is in the channel are,
one after the other, the verdicts that workers put into the channel, in that order.

Each place on the way hands its oldest verdict to the next one, so each has an equation of its own:
what was put into the channel was received or is in there (`Pool.Outlet`), and what was received was
fetched, is in the store or is carried there (`collected_eq`). `kept_eq` puts them together.

Which verdicts were fetched is read off the answers (`fetched`), and which were put into the channel
off the states in which workers judged (`pushed`), not off the history.
-/

namespace Conveyor.Moderation.Service

open Time

/-! ### The way through the store -/

/-- The verdict that the collector has taken and not stored. -/
def Collector.carried : Collector → List Verdict
  | carrying v => [v]
  | _ => []

/-- The verdict that the collector stored. -/
@[simp] def Note.stored? : Note → Option Verdict
  | stored v => some v
  | _ => none

/-- The verdict that a worker put into the channel. -/
@[simp] def Note.pushed? : Note → Option Verdict
  | pool note => note.kept?
  | _ => none

/-- The verdicts that the collector stored, in order. -/
abbrev stored (notes : List Note) : List Verdict := extract Note.stored? notes

namespace State

/-- The verdict that a client got. -/
def fetchedBy (s : State) : Action → List Verdict
  | .pop => s.pop.1.toList
  | _ => []

/-- The verdicts that clients got in a run, in order. -/
def fetched (s : State) (policy : Policy) (as : List Action) : List Verdict :=
  collect (act · policy) fetchedBy s as

/-- The verdict that a worker puts into the channel in an action. -/
def pushedBy (policy : Policy) (s : State) (a : Action) : List Verdict :=
  match a.onPool? with
  | some b => s.pool.pushedBy policy b
  | none => []

/-- The verdicts that workers put into the channel in a run, in order. -/
def pushed (s : State) (policy : Policy) (as : List Action) : List Verdict :=
  collect (act · policy) (pushedBy policy) s as

end State

section Store

variable {policy : Policy} {s t : State} {a : Action} {as : List Action} {notes new : List Note}

theorem kept_inPool (notes : List Note) :
    Pool.kept (inPool notes) = extract Note.pushed? notes := by
  induction notes with
  | nil => rfl
  | cons n notes ih =>
    rw [inPool_cons, Pool.kept, extract_append, extract_cons, ← ih]
    cases n <;> simp

@[simp] theorem stored_map (news : List Pool.Note) : stored (news.map .pool) = [] := by
  induction news with
  | nil => rfl
  | cons n news ih => simpa using ih

theorem Change.fetchedBy_eq (h : Change policy s a t new) : s.fetchedBy a = popped new := by
  cases h with
  | pop next => simp [State.fetchedBy, State.pop, Store.pop, next]
  | popNothing empty => simp [State.fetchedBy, State.pop, Store.pop, empty]
  | work onPool | turnFromPool onPool | returnFromPool onPool | skipFromPool onPool =>
    cases a <;> simp_all [State.fetchedBy, Action.onPool?]
  | _ => simp [State.fetchedBy]

theorem Change.pushedBy_eq (hs : s.pool.Coupled) (h : Change policy s a t new) :
    s.pushedBy policy a = extract Note.pushed? new := by
  rw [← kept_inPool]
  cases h with
  | work onPool acts | turnFromPool onPool acts | returnFromPool onPool acts
  | skipFromPool onPool acts =>
    simp [State.pushedBy, onPool, (hs.change acts).pushedBy_eq]
  | _ => simp [State.pushedBy, Action.onPool?]

/-- The answers tell which verdicts left the store. -/
theorem fetched_eq (hs : s.pool.Coupled) (hreader : s.pool.reader = .taken)
    (h : Runs (State.act · policy) s as t notes) : s.fetched policy as = popped notes :=
  h.collect_eq fun run act_eq ↦
    (State.change (hs.of_runs (State.pool_runs hs hreader run).2) act_eq).fetchedBy_eq

/-- Nothing leaves the store when nobody fetches. -/
theorem popped_eq_nil (hs : s.pool.Coupled) (hreader : s.pool.reader = .taken)
    (h : Runs (State.act · policy) s as t notes) (hnobody : .pop ∉ as) : popped notes = [] := by
  rw [← fetched_eq hs hreader h]
  refine collect_eq_nil (fun s a ha ↦ ?_) s
  cases a with
  | pop => exact absurd ha hnobody
  | _ => rfl

/-- The verdicts that workers put into the channel are those that came there in the pool. -/
theorem pushed_eq (hs : s.pool.Coupled) (hreader : s.pool.reader = .taken)
    (h : Runs (State.act · policy) s as t notes) :
    s.pushed policy as = Pool.kept (inPool notes) := by
  rw [kept_inPool]
  refine h.collect_eq fun run act_eq ↦ ?_
  have ht := hs.of_runs (State.pool_runs hs hreader run).2
  exact (State.change ht act_eq).pushedBy_eq ht

/-- A verdict that the collector took was stored, or is in its hand. -/
theorem collected_eq (hs : s.pool.Coupled) (hreader : s.pool.reader = .taken)
    (hempty : s.collector.carried = []) (h : Runs (State.act · policy) s as t notes) :
    collected notes = stored notes ++ t.collector.carried := by
  refine State.runs_induction hs hreader h
    (motive := fun _ t notes ↦ collected notes = stored notes ++ t.collector.carried)
    (by simp [hempty]) ?_
  intro as t notes a u new ht hchange ih
  cases hchange with
  | collect ready next => simp [ih, ready, Collector.carried]
  | store carrying => simp [ih, carrying, Collector.carried]
  | finish ready => simp [ih, ready, Collector.carried]
  | _ => simp [ih, State.withPool]

/-- A verdict that the collector stored was fetched, or is in the store. -/
theorem stored_eq (hs : s.pool.Coupled) (hreader : s.pool.reader = .taken)
    (hempty : s.store.waiting = []) (h : Runs (State.act · policy) s as t notes) :
    stored notes = popped notes ++ t.store.waiting := by
  refine State.runs_induction hs hreader h
    (motive := fun _ t notes ↦ stored notes = popped notes ++ t.store.waiting)
    (by simp [hempty]) ?_
  intro as t notes a u new ht hchange ih
  cases hchange with
  | pop next => simp [ih, next]
  | store carrying => simp [ih]
  | _ => simp [ih, State.withPool]

/-- The verdicts that are received from the pool are those that the collector took. -/
theorem received_inPool (hs : s.pool.Coupled) (hreader : s.pool.reader = .taken)
    (h : Runs (State.act · policy) s as t notes) :
    Pool.received (inPool notes) = collected notes := by
  refine State.runs_induction hs hreader h
    (motive := fun _ _ notes ↦ Pool.received (inPool notes) = collected notes) rfl ?_
  intro as t notes a u new ht hchange ih
  have hnew := hchange.received_eq ht
  rw [inPool_append]
  simp [ih, hnew]

end Store

/-! ### From the workers to the clients -/

section Whole

variable {policy : Policy} {workers capacity : Nat} {before : List Pool.Action} {pool : Pool.State}
  {early : List Pool.Note} {as : List Action} {s : State} {past : List Note}

/-- The service takes the receiving end of the channel when it is there to be taken. -/
theorem State.ofPool_of_untaken (h : pool.reader = .untaken) :
    State.ofPool pool = (⟨{ pool with reader := .taken }, .ready, true, .empty, []⟩, []) := by
  simp [State.ofPool, Pool.State.takeResults, h]

/-- Taking the receiving end of the channel keeps the parts of the pool together. -/
theorem State.coupled_ofPool (hs : pool.Coupled) (h : pool.reader = .untaken) :
    (State.ofPool pool).1.pool.Coupled := by
  rw [State.ofPool_of_untaken h]
  exact { hs with gone := by simp }

/-- The pool of a service has made a run from its beginning. -/
theorem pool_runs_of_new
    (hearly : Runs (Pool.State.act · policy) (.new workers capacity) before pool early)
    (huntaken : pool.reader = .untaken)
    (h : Runs (State.act · policy) (State.ofPool pool).1 as s past) :
    s.pool.reader = .taken ∧
      Runs (Pool.State.act · policy) (.new workers capacity)
        (before ++ .takeResults :: as.filterMap Action.mirrored?) s.pool
        (early ++ inPool past) := by
  have htake : Runs (Pool.State.act · policy) (.new workers capacity) (before ++ [.takeResults])
      { pool with reader := .taken } (early ++ []) :=
    hearly.tail (by simp [Pool.State.act, Pool.State.takeResults, huntaken])
  have hstart : (State.ofPool pool).1.pool = { pool with reader := .taken } := by
    rw [State.ofPool_of_untaken huntaken]
  have hcoupled := (Pool.State.Coupled.of_new workers capacity).of_runs hearly
  obtain ⟨hreader, hruns⟩ :=
    State.pool_runs (State.coupled_ofPool hcoupled huntaken) (by rw [hstart]) h
  rw [hstart] at hruns
  exact ⟨hreader, by simpa using htake.trans hruns⟩

/-- At first the store is empty, and the collector has nothing in its hand. -/
theorem State.empty_ofPool (h : pool.reader = .untaken) :
    (State.ofPool pool).1.store.waiting = [] ∧ (State.ofPool pool).1.collector.carried = [] := by
  simp [State.ofPool_of_untaken h, Store.empty, Collector.carried]

/-- A verdict that was put into the channel of the pool, before the service was made over it or
after, was fetched, is in the store, is carried there or is in the channel, in that order. -/
theorem kept_eq
    (hearly : Runs (Pool.State.act · policy) (.new workers capacity) before pool early)
    (huntaken : pool.reader = .untaken)
    (h : Runs (State.act · policy) (State.ofPool pool).1 as s past) :
    Pool.kept (early ++ inPool past) =
      popped past ++ s.store.waiting ++ s.collector.carried ++ s.pool.channel := by
  have hnew : (Pool.State.new workers capacity).Coupled := .of_new workers capacity
  obtain ⟨hreader, hruns⟩ := pool_runs_of_new hearly huntaken h
  have hstart := State.coupled_ofPool (hnew.of_runs hearly) huntaken
  have htaken : (State.ofPool pool).1.pool.reader = .taken := by
    rw [State.ofPool_of_untaken huntaken]
  obtain ⟨hstore, hcarried⟩ := State.empty_ofPool huntaken
  have hbooks := Pool.Outlet.of_runs hnew rfl hruns
  have hearlier := (Pool.Outlet.of_runs hnew rfl hearly).received huntaken
  have hthrown := hbooks.thrown (by simp [hreader])
  have hreceived : Pool.received (early ++ inPool past) =
      popped past ++ s.store.waiting ++ s.collector.carried := by
    rw [← stored_eq hstart htaken hstore h, ← collected_eq hstart htaken hcarried h,
      ← received_inPool hstart htaken h]
    simp [hearlier]
  rw [hbooks.kept, hthrown, hreceived, List.append_nil]

end Whole

/-! ### The statement -/

/-- Where the verdicts are after a run of the service `start`. -/
structure Stream (policy : Policy) (start : State) (as : List Action) (s : State)
    (notes : List Note) : Prop where
  /-- The verdicts that workers put into the channel are, in that order, those that were fetched,
  those in the store, the one in the hand of the collector and those in the channel. -/
  in_order : start.pushed policy as =
    start.fetched policy as ++ s.store.waiting ++ s.collector.carried ++ s.pool.channel
  /-- The collector has one verdict in its hand at most. -/
  carried_le : s.collector.carried.length ≤ 1
  /-- A client gets nothing if and only if the store is empty. -/
  pop_eq_none : s.pop.1 = none ↔ s.store.waiting = []
  /-- A client that gets nothing changes nothing. -/
  pop_nothing : s.pop.1 = none → s.pop.2 = (s, [])
  /-- The verdicts that came to the store are those that were fetched and those that wait. -/
  stored : stored notes = start.fetched policy as ++ s.store.waiting
  /-- As many verdicts are available as came to the store and were not fetched. -/
  available : s.available + (start.fetched policy as).length = (Service.stored notes).length

/-- **The stream of verdicts.** After every run of a service over a new pool, whatever the clients,
the workers and the collector did, the verdicts are on their way in the order in which workers put
them into the channel, and none is missing or there twice. -/
theorem stream_of_run {policy : Policy} {workers capacity : Nat} {as : List Action} {s : State}
    {notes : List Note}
    (hrun : (State.ofPool (Pool.State.new workers capacity)).1.run policy as = some (s, notes)) :
    Stream policy (State.ofPool (Pool.State.new workers capacity)).1 as s notes := by
  have huntaken : (Pool.State.new workers capacity).reader = .untaken := rfl
  have hstart := State.coupled_ofPool (.of_new workers capacity) huntaken
  have htaken : (State.ofPool (Pool.State.new workers capacity)).1.pool.reader = .taken := rfl
  have hruns := State.run_iff.1 hrun
  have hkept := kept_eq .refl huntaken hruns
  have hstored := stored_eq hstart htaken (State.empty_ofPool huntaken).1 hruns
  have hfetched := fetched_eq hstart htaken hruns
  exact {
    in_order := by
      rw [pushed_eq hstart htaken hruns, hfetched]
      simpa using hkept
    carried_le := by cases s.collector <;> simp [Collector.carried]
    pop_eq_none := by
      rcases hwaiting : s.store.waiting with - | ⟨v, rest⟩ <;> simp [State.pop, Store.pop, hwaiting]
    pop_nothing := by
      rcases hwaiting : s.store.waiting with - | ⟨v, rest⟩ <;> simp [State.pop, Store.pop, hwaiting]
    stored := by rw [hstored, hfetched]
    available := by
      rw [hstored, hfetched, List.length_append, Nat.add_comm]
      rfl }

/-- Four verdicts, one at each place of the way. -/
def sampleStream : List Action :=
  let judged (contentId : String) : List Action :=
    [.submit (Pool.sampleJob contentId), .step (.pool (.arrive 0)) .epoch,
      .step (.pool (.pull 0)) .epoch, .step (.pool (.judge 0)) .epoch]
  .issue 0 .start :: judged "a" ++ [.step .collect .epoch] ++ judged "b" ++
    [.step .store .epoch, .step .collect .epoch, .step .store .epoch, .pop] ++ judged "c" ++
    [.step .collect .epoch] ++ judged "d" ++ [.issue 1 .stop]

theorem stream_of_run_sample : ∃ s notes,
    (State.ofPool (Pool.State.new 1 4)).1.run Pool.samplePolicy sampleStream = some (s, notes) ∧
      popped notes = [Pool.sampleVerdict "a"] ∧
      s.store.waiting = [Pool.sampleVerdict "b"] ∧
      s.collector = .carrying (Pool.sampleVerdict "c") ∧
      s.pool.channel = [Pool.sampleVerdict "d"] ∧
      Stream Pool.samplePolicy (State.ofPool (Pool.State.new 1 4)).1 sampleStream s notes := by
  have hrun : ∃ s notes,
      (State.ofPool (Pool.State.new 1 4)).1.run Pool.samplePolicy sampleStream =
          some (s, notes) ∧
        popped notes = [Pool.sampleVerdict "a"] ∧
        s.store.waiting = [Pool.sampleVerdict "b"] ∧
        s.collector = .carrying (Pool.sampleVerdict "c") ∧
        s.pool.channel = [Pool.sampleVerdict "d"] := ⟨_, _, rfl, rfl, rfl, rfl, rfl⟩
  obtain ⟨s, notes, hrun, hpopped, hstore, hcarrying, hchannel⟩ := hrun
  exact ⟨s, notes, hrun, hpopped, hstore, hcarrying, hchannel, stream_of_run hrun⟩

end Conveyor.Moderation.Service
