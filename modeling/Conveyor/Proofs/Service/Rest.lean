import Conveyor.Proofs.Pool.Rest
import Conveyor.Proofs.Service.Shutdown

/-!
# A service comes to rest

Left to itself a service makes finitely many steps, for each of them takes something of its weight
(`Change.weight_lt`). When no step is possible any more and the pool is stopped, nothing is left to
do: no job waits, no verdict is in the channel, no worker is alive, the collector has ended and
every call has returned (`Sound.finished`).

The channel is closed when the last worker is gone and the pool has given up its own end, so the
collector is not kept waiting by a sending end that nobody uses. What is left is a call that waits
for something that is over; there is none, since every call waits in the pool or for the collector
(`Placed`).
-/

namespace Conveyor.Moderation.Service

open Time

/-- A bound on the number of steps that the collector makes without taking another verdict. -/
def Collector.weight : Collector → Nat
  | ready => 1
  | carrying _ => 2
  | _ => 0

/-- No step is possible, whatever the time. -/
def State.AtRest (s : State) (policy : Policy) : Prop := ∀ x now, s.step policy now x = none

/-- A call with this number has not returned. -/
def State.Waits (s : State) (id : Nat) : Prop := ∃ p ∈ s.pending, p.id = id

/-- Each of these calls has a call in the pool, or waits for the collector. -/
def Placed (calls : List Call) (pending : List Pending) : Prop :=
  ∀ p ∈ pending, (∃ c ∈ calls, c.id = p.id) ∨ ⟨p.id, .atCollector⟩ ∈ pending

theorem State.weight_eq (s : State) :
    s.weight = s.pool.weight + s.pending.length + s.collector.weight := by
  unfold State.weight Collector.weight
  rfl

section Changes

variable {policy : Policy} {s t : State} {a : Action} {b : Pool.Action} {x : Step} {now : Timestamp}
  {id : Nat} {request : Request} {as : List Action} {notes new : List Note}

/-! ### The weight -/

/-- A call that leaves the others makes them fewer. -/
theorem State.length_others_lt {stage : Stage} (h : ⟨id, stage⟩ ∈ s.pending) :
    (s.others id).length < s.pending.length :=
  List.length_filter_lt_length_iff_exists.2 ⟨_, h, by simp⟩

theorem State.length_others_le (s : State) (id : Nat) :
    (s.others id).length ≤ s.pending.length :=
  List.length_filter_le _ _

/-- What a call that is issued adds. -/
theorem Action.length_joining_le (a : Action) : a.joining.length ≤ 1 := by
  unfold joining
  split <;> simp

/-- A call that is made in the pool has the number of the call that is issued. -/
theorem Action.call_of_onPool (h : (issue id request).onPool? = some b) :
    ∃ call, b = .issue call ∧ call.id = id := by
  cases request with
  | shutdown => simp [onPool?] at h
  | _ =>
    obtain rfl := Option.some.inj h
    exact ⟨_, rfl, rfl⟩

/-- What an action of the pool leaves of the service. -/
theorem Change.of_onPool (h : Change policy s a t new) (honPool : a.onPool? = some b) :
    ∃ news, s.pool.act policy b = some (t.pool, news) ∧ t.collector = s.collector ∧
      t.pending.length ≤ s.pending.length + a.joining.length := by
  have hjoined (pool : Pool.State) :
      (s.withPool pool a).pending.length = s.pending.length + a.joining.length :=
    List.length_append
  cases h with
  | work onPool acts =>
    obtain rfl := Option.some.inj (onPool.symm.trans honPool)
    exact ⟨_, acts, rfl, Nat.le_of_eq (hjoined _)⟩
  | @returnFromPool _ _ pool _ k onPool acts | @skipFromPool _ _ pool _ k onPool acts =>
    obtain rfl := Option.some.inj (onPool.symm.trans honPool)
    exact ⟨_, acts, rfl, hjoined pool ▸ (s.withPool pool a).length_others_le k⟩
  | @turnFromPool _ _ pool _ k onPool acts returned waiting =>
    obtain rfl := Option.some.inj (onPool.symm.trans honPool)
    refine ⟨_, acts, rfl, ?_⟩
    rw [← hjoined pool, List.length_append]
    exact State.length_others_lt waiting
  | _ => simp [Action.onPool?] at honPool

/-- The number of workers is settled from the start. -/
theorem Change.workers_eq (hs : s.pool.Coupled) (h : Change policy s a t new) :
    t.pool.workers = s.pool.workers := by
  cases h with
  | work onPool acts | returnFromPool onPool acts | turnFromPool onPool acts
  | skipFromPool onPool acts => exact (hs.change acts).workers_eq
  | _ => rfl

/-- Every step takes something of the weight. -/
theorem Change.weight_lt (hs : s.pool.Coupled) (hturn : Pool.InTurn s.pool)
    (h : Change policy s (.step x now) t new) : t.weight < s.weight := by
  cases x with
  | pool y =>
    obtain ⟨news, hacts, hcollector, hpending⟩ := h.of_onPool rfl
    have hless := (hs.change hacts).weight_lt hs hturn
    rw [State.weight_eq, State.weight_eq, hcollector]
    simp only [Action.joining, List.length_nil] at hpending
    omega
  | collect =>
    cases h with
    | collect ready next =>
      simp only [State.weight_eq, Pool.State.weight_eq, ready, next, Collector.weight,
        List.length_cons]
      omega
    | work onPool | returnFromPool onPool | turnFromPool onPool | skipFromPool onPool =>
      simp [Action.onPool?] at onPool
  | store =>
    cases h with
    | store carrying =>
      simp only [State.weight_eq, carrying, Collector.weight]
      omega
    | work onPool | returnFromPool onPool | turnFromPool onPool | skipFromPool onPool =>
      simp [Action.onPool?] at onPool
  | finish =>
    cases h with
    | finish ready =>
      simp only [State.weight_eq, ready, Collector.weight]
      omega
    | work onPool | returnFromPool onPool | turnFromPool onPool | skipFromPool onPool =>
      simp [Action.onPool?] at onPool
  | join id =>
    cases h with
    | join ended waiting =>
      have hless := State.length_others_lt waiting
      simp only [State.weight_eq]
      omega
    | work onPool | returnFromPool onPool | turnFromPool onPool | skipFromPool onPool =>
      simp [Action.onPool?] at onPool

/-- A call that is issued adds little to the weight. -/
theorem Change.weight_le (hs : s.pool.Coupled) (hturn : Pool.InTurn s.pool)
    (h : Change policy s (.issue id request) t new) :
    t.weight ≤ s.weight + (s.pool.workers * 2 + 3) := by
  rcases honPool : (Action.issue id request).onPool? with - | b
  · have hothers := s.length_others_le id
    cases h with
    | turn | skip =>
      simp only [State.weight_eq, List.length_append, List.length_singleton]
      omega
    | work onPool | returnFromPool onPool | turnFromPool onPool | skipFromPool onPool =>
      simp [honPool] at onPool
  · obtain ⟨news, hacts, hcollector, hpending⟩ := h.of_onPool honPool
    have hjoining := (Action.issue id request).length_joining_le
    obtain ⟨call, rfl, -⟩ := Action.call_of_onPool honPool
    have hmore := (hs.change hacts).weight_le hs hturn
    rw [State.weight_eq, State.weight_eq, hcollector]
    omega

/-! ### Calls that wait -/

/-- The others are placed if each of them was. -/
theorem placed_others {calls : List Call}
    (h : ∀ p ∈ s.pending, p.id ≠ id →
      (∃ c ∈ calls, c.id = p.id) ∨ ⟨p.id, .atCollector⟩ ∈ s.pending) :
    Placed calls (s.others id) := by
  intro p hp
  obtain ⟨hmem, hne⟩ := State.mem_others.1 hp
  exact (h p hmem hne).imp_right fun hwaits ↦ State.mem_others.2 ⟨hwaits, hne⟩

/-- A call that turns to the collector is placed. -/
theorem Placed.turn {calls : List Call} {pending : List Pending} (h : Placed calls pending)
    (id : Nat) : Placed calls (pending ++ [⟨id, .atCollector⟩]) := by
  intro p hp
  rcases List.mem_append.1 hp with hold | hturned
  · exact (h p hold).imp_right (List.mem_append_left _)
  · obtain rfl := List.mem_singleton.1 hturned
    exact .inr hp

/-- After an action of the pool each call is placed, but for the one that returned there. -/
theorem placed_withPool (hs : s.pool.Coupled) (hplaced : Placed s.pool.turns.calls s.pending)
    (honPool : a.onPool? = some b) {pool : Pool.State} {news : List Pool.Note}
    (hacts : s.pool.act policy b = some (pool, news)) :
    ∀ p ∈ (s.withPool pool a).pending,
      .returned p.id ∈ news ∨ (∃ c ∈ pool.turns.calls, c.id = p.id) ∨
        ⟨p.id, .atCollector⟩ ∈ (s.withPool pool a).pending := by
  have hcall {c : Call} (hc : b.call? = some c ∨ c ∈ s.pool.turns.calls) :
      .returned c.id ∈ news ∨ ∃ d ∈ pool.turns.calls, d.id = c.id :=
    (((hs.change hacts).turns hs).stays hc).symm.imp And.left (⟨c, ·, rfl⟩)
  intro p hp
  rcases List.mem_append.1 hp with hold | hjoining
  · rcases hplaced p hold with ⟨c, hc, hid⟩ | hwaits
    · rw [← hid]
      exact (hcall (.inr hc)).imp_right .inl
    · exact .inr (.inr (List.mem_append_left _ hwaits))
  · obtain ⟨request, rfl, -⟩ := Action.mem_joining hjoining
    obtain ⟨call, rfl, hid⟩ := Action.call_of_onPool honPool
    rw [← hid]
    exact (hcall (.inl rfl)).imp_right .inl

/-- Every call stays in its place or comes to another. -/
theorem Change.placed (hs : s.pool.Coupled) (h : Change policy s a t new)
    (hplaced : Placed s.pool.turns.calls s.pending) : Placed t.pool.turns.calls t.pending := by
  have hothers {b : Pool.Action} {pool : Pool.State} {news : List Pool.Note} {id : Nat}
      (honPool : a.onPool? = some b) (hacts : s.pool.act policy b = some (pool, news))
      (hreturned : .returned id ∈ news) :
      Placed pool.turns.calls ((s.withPool pool a).others id) :=
    placed_others fun p hp hne ↦
      (placed_withPool hs hplaced honPool hacts p hp).resolve_left fun hp' ↦
        hne ((hs.change hacts).returned_unique hp' hreturned)
  cases h with
  | work onPool acts unclaimed =>
    intro p hp
    rcases placed_withPool hs hplaced onPool acts p hp with hreturned | hplace
    · exact .inr (unclaimed p hp hreturned)
    · exact hplace
  | returnFromPool onPool acts returned | skipFromPool onPool acts returned =>
    exact hothers onPool acts returned
  | turnFromPool onPool acts returned => exact (hothers onPool acts returned).turn _
  | turn => exact (placed_others fun p hp _ ↦ hplaced p hp).turn _
  | skip | join => exact placed_others fun p hp _ ↦ hplaced p hp
  | _ => exact hplaced

/-- A call that is issued, or has not returned before, waits on or returns. -/
theorem Change.waits (h : Change policy s a t new) (hwaits : a.callId? = some id ∨ s.Waits id) :
    t.Waits id ∨ .returned id ∈ new := by
  have hpool {b : Pool.Action} (pool : Pool.State) (honPool : a.onPool? = some b) :
      (s.withPool pool a).Waits id := by
    rcases hwaits with hissued | ⟨p, hp, hid⟩
    · cases a with
      | issue k request =>
        obtain rfl : k = id := by simpa using hissued
        cases request <;> simp_all [Action.onPool?, State.Waits, State.withPool, Action.joining]
      | _ => simp at hissued
    · exact ⟨p, List.mem_append_left _ hp, hid⟩
  have hothers {u : State} (k : Nat) (hu : u.Waits id) : id = k ∨ ∃ p ∈ u.others k, p.id = id := by
    obtain ⟨p, hp, hid⟩ := hu
    by_cases hk : id = k
    · exact .inl hk
    · exact .inr ⟨p, State.mem_others.2 ⟨hp, hid ▸ hk⟩, hid⟩
  cases h with
  | work onPool => exact .inl (hpool _ onPool)
  | @returnFromPool _ _ pool _ k onPool | @skipFromPool _ _ pool _ k onPool =>
    rcases hothers k (hpool pool onPool) with rfl | hstays
    · exact .inr (by simp)
    · exact .inl hstays
  | @turnFromPool _ _ pool _ k onPool =>
    rcases hothers k (hpool pool onPool) with rfl | ⟨p, hp, hid⟩
    · exact .inl ⟨⟨id, .atCollector⟩, by simp, rfl⟩
    · exact .inl ⟨p, List.mem_append_left _ hp, hid⟩
  | @turn k =>
    refine .inl ?_
    rcases hwaits with hissued | hwaits
    · exact ⟨⟨k, .atCollector⟩, by simp, by simpa using hissued⟩
    · rcases hothers k hwaits with rfl | ⟨p, hp, hid⟩
      · exact ⟨⟨id, .atCollector⟩, by simp, rfl⟩
      · exact ⟨p, List.mem_append_left _ hp, hid⟩
  | @skip k =>
    rcases hwaits with hissued | hwaits
    · exact .inr (by simpa [eq_comm] using hissued)
    · rcases hothers k hwaits with rfl | hstays
      · exact .inr (by simp)
      · exact .inl hstays
  | @join k =>
    rcases hothers k (hwaits.resolve_left (by simp)) with rfl | hstays
    · exact .inr (by simp)
    · exact .inl hstays
  | _ => exact .inl (hwaits.resolve_left (by simp))

/-- A call that waits among the others, or is made in the pool, waited before or is issued. -/
theorem State.waits_of_withPool {pool : Pool.State} (h : (s.withPool pool a).Waits id) :
    s.Waits id ∨ ∃ request, a = .issue id request := by
  obtain ⟨p, hp, rfl⟩ := h
  rcases List.mem_append.1 hp with hold | hjoining
  · exact .inl ⟨p, hold, rfl⟩
  · obtain ⟨request, ha, -⟩ := Action.mem_joining hjoining
    exact .inr ⟨request, ha⟩

/-- A call that waits or returns was issued, or waited before. -/
theorem Change.waited (h : Change policy s a t new) (hwaits : t.Waits id ∨ .returned id ∈ new) :
    s.Waits id ∨ ∃ request, a = .issue id request := by
  have hothers {u : State} {k : Nat} : (∃ p ∈ u.others k, p.id = id) → u.Waits id :=
    fun ⟨p, hp, hid⟩ ↦ ⟨p, (State.mem_others.1 hp).1, hid⟩
  cases h with
  | work => exact State.waits_of_withPool (hwaits.resolve_right (by simp))
  | @returnFromPool a _ pool _ k onPool acts returned waiting
  | @skipFromPool a _ pool _ k onPool acts returned waiting =>
    suffices hjoined : (s.withPool pool a).Waits id from State.waits_of_withPool hjoined
    rcases hwaits with hstays | hreturned
    · exact hothers hstays
    · obtain rfl : id = k := by simpa using hreturned
      exact ⟨_, waiting, rfl⟩
  | @turnFromPool a _ pool _ k onPool acts returned waiting =>
    obtain ⟨p, hp, hid⟩ := hwaits.resolve_right (by simp)
    suffices hjoined : (s.withPool pool a).Waits id from State.waits_of_withPool hjoined
    rcases List.mem_append.1 hp with hold | hturned
    · exact hothers ⟨p, hold, hid⟩
    · obtain rfl := List.mem_singleton.1 hturned
      exact ⟨_, waiting, hid⟩
  | @turn k =>
    obtain ⟨p, hp, rfl⟩ := hwaits.resolve_right List.not_mem_nil
    rcases List.mem_append.1 hp with hold | hturned
    · exact .inl (hothers ⟨p, hold, rfl⟩)
    · obtain rfl := List.mem_singleton.1 hturned
      exact .inr ⟨_, rfl⟩
  | @skip k =>
    rcases hwaits with hstays | hreturned
    · exact .inl (hothers hstays)
    · obtain rfl : id = k := by simpa using hreturned
      exact .inr ⟨_, rfl⟩
  | @join k now ended waiting =>
    rcases hwaits with hstays | hreturned
    · exact .inl (hothers hstays)
    · obtain rfl : id = k := by simpa using hreturned
      exact .inl ⟨_, waiting, rfl⟩
  | _ => exact .inl (hwaits.resolve_right (by simp))

/-- Only the call that is issued returns at once. -/
theorem Change.eq_of_returned {k : Nat} (hs : s.pool.Coupled)
    (h : Change policy s (.issue id request) t new) (hreturned : .returned k ∈ new) : k = id := by
  cases h with
  | work => simp at hreturned
  | @returnFromPool _ _ pool _ m onPool acts returned
  | @skipFromPool _ _ pool _ m onPool acts returned =>
    obtain rfl : k = m := by simpa using hreturned
    obtain ⟨call, rfl, rfl⟩ := Action.call_of_onPool onPool
    exact ((hs.change acts).turns hs).eq_of_noted returned
  | turnFromPool => simp at hreturned
  | turn => simp at hreturned
  | skip => simpa using hreturned

/-- A call to stop the pool stops it in time, and it stays stopped. -/
theorem Change.stopping (hs : s.pool.Coupled) (h : Change policy s a t new)
    (hstop : a = .issue id .stopPool ∨ s.pool.Stopping id) : t.pool.Stopping id := by
  rcases honPool : a.onPool? with - | b
  · have hstopping : s.pool.Stopping id := hstop.resolve_left (by
      rintro rfl
      simp [Action.onPool?] at honPool)
    cases h with
    | work onPool | returnFromPool onPool | turnFromPool onPool | skipFromPool onPool =>
      simp [honPool] at onPool
    | _ => exact hstopping
  · obtain ⟨news, hacts, -⟩ := h.of_onPool honPool
    refine (hs.change hacts).stopping hs (hstop.symm.imp_right ?_)
    rintro rfl
    exact (Option.some.inj honPool).symm

/-! ### The collector -/

/-- The collector is there. -/
theorem Change.present (h : Change policy s a t new) (hpresent : s.collector ≠ .absent) :
    t.collector ≠ .absent := by
  cases h with
  | collect => simp
  | store => simp
  | finish => simp
  | _ => exact hpresent

end Changes

/-! ### What is so of every service -/

/-- What is so of a service over a new pool. -/
structure Sound (s : State) : Prop where
  /-- The parts of the pool hang together. -/
  coupled : s.pool.Coupled
  /-- The calls to the pool take turns. -/
  turn : Pool.InTurn s.pool
  /-- Nobody in the crew has died. -/
  dead : .dead ∉ s.pool.crew
  /-- Every call waits in the pool or for the collector. -/
  placed : Placed s.pool.turns.calls s.pending
  /-- The collector is there. -/
  present : s.collector ≠ .absent
  /-- The collector has ended only when the channel was closed and empty. -/
  closed : s.collector = .ended → s.pool.sends = false ∧ s.pool.channel = []

namespace Sound

variable {policy : Policy} {s t : State} {as : List Action} {notes : List Note}

/-- A service that was run is sound if its policy kills nobody. -/
theorem of_runs {workers capacity : Nat} (htotal : ∀ now j, policy now j ≠ none)
    (h : Runs (State.act · policy) (State.ofPool (Pool.State.new workers capacity)).1 as s notes) :
    Sound s := by
  have hnew : (Pool.State.new workers capacity).Coupled := .of_new workers capacity
  have huntaken : (Pool.State.new workers capacity).reader = .untaken := rfl
  have hstart := State.coupled_ofPool hnew huntaken
  obtain ⟨-, hpool⟩ := pool_runs_of_new .refl huntaken h
  have hturn := (Pool.InTurn.of_calls_eq_nil rfl rfl).of_runs hnew hpool
  have hdead := Pool.dead_not_mem_of_runs htotal hnew rfl hpool
  have hrest : Placed s.pool.turns.calls s.pending ∧ s.collector ≠ .absent := by
    refine State.runs_induction hstart rfl h
      (motive := fun _ t _ ↦ Placed t.pool.turns.calls t.pending ∧ t.collector ≠ .absent) ?_ ?_
    · exact ⟨fun p hp ↦ absurd hp List.not_mem_nil, by simp [State.ofPool_of_untaken huntaken]⟩
    · rintro as t notes a u new ht hchange ⟨ihplaced, ihpresent⟩
      exact ⟨hchange.placed ht ihplaced, hchange.present ihpresent⟩
  exact {
    coupled := hnew.of_runs hpool
    turn := hturn
    dead := hdead
    placed := hrest.1
    present := hrest.2
    closed := closed_of_ended hstart rfl (by simp [State.ofPool_of_untaken huntaken]) h }

/-! ### At rest -/

/-- The pool of a service at rest is at rest. -/
theorem pool_atRest (hrest : s.AtRest policy) : s.pool.AtRest policy := by
  intro x now
  have hstep := hrest (.pool x) now
  cases hpool : s.pool.step policy now x with
  | none => rfl
  | some p => simp [State.step, hpool] at hstep

/-- Every call to the pool of a service at rest has returned. -/
theorem calls_eq_nil (h : Sound s) (hrest : s.AtRest policy) : s.pool.turns.calls = [] :=
  h.coupled.calls_eq_nil h.turn (pool_atRest hrest)

/-- The collector of a service at rest has ended if nobody can send. -/
theorem collector_eq_ended (h : Sound s) (hrest : s.AtRest policy)
    (hclosed : s.pool.sends = false) : s.collector = .ended := by
  cases hcollector : s.collector with
  | absent => exact absurd hcollector h.present
  | ready =>
    rcases hchannel : s.pool.channel with - | ⟨v, channel⟩
    · have hfinish := hrest .finish .epoch
      simp [State.step, hcollector, hchannel, hclosed] at hfinish
    · have hcollect := hrest .collect .epoch
      simp [State.step, hcollector, hchannel] at hcollect
  | carrying v =>
    have hstore := hrest .store .epoch
    simp [State.step, hcollector] at hstore
  | ended => rfl

/-- No call waits in a service at rest whose collector has ended. -/
theorem pending_eq_nil (h : Sound s) (hrest : s.AtRest policy)
    (hended : s.collector = .ended) : s.pending = [] := by
  refine List.eq_nil_iff_forall_not_mem.2 fun p hp ↦ ?_
  rcases h.placed p hp with ⟨c, hc, -⟩ | hwaits
  · simp [h.calls_eq_nil hrest] at hc
  · have hjoin := hrest (.join p.id) .epoch
    simp [State.step, hended, hwaits] at hjoin

end Sound

/-- Nothing is left to do in a service. -/
structure State.IsFinished (s : State) : Prop where
  /-- The pool is stopped. -/
  stopped : s.pool.lifecycle = .stopped
  /-- No job waits. -/
  queue : s.pool.queue = []
  /-- Every worker has left. -/
  crew : ∀ w ∈ s.pool.crew, w = .left
  /-- No verdict is in the channel. -/
  channel : s.pool.channel = []
  /-- The collector has ended. -/
  collector : s.collector = .ended
  /-- Every call has returned. -/
  pending : s.pending = []

/-- A service that is at rest after a call to stop its pool is finished. -/
theorem Sound.finished {policy : Policy} {s : State} (h : Sound s) (hrest : s.AtRest policy)
    {id : Nat} (hstop : s.pool.Stopping id) : s.IsFinished := by
  have hstopped : s.pool.lifecycle = .stopped :=
    hstop.resolve_right (by simp [h.calls_eq_nil hrest])
  obtain ⟨hqueue, hunmanned, hclosed⟩ := h.coupled.finished (pool_atRest hrest) hstopped
  have hended := h.collector_eq_ended hrest hclosed
  exact {
    stopped := hstopped
    queue := hqueue
    crew := fun w hw ↦ by
      have hgone : w.isAlive = false := Pool.State.not_alive_of_closed hclosed hw
      cases w with
      | left => rfl
      | dead => exact absurd hw h.dead
      | _ => simp [Pool.Worker.isAlive] at hgone
    channel := (h.closed hended).2
    collector := hended
    pending := h.pending_eq_nil hrest hended }

end Conveyor.Moderation.Service
