import Conveyor.Moderation.Service
import Conveyor.Proofs.Pool.Books
import Conveyor.Proofs.Pool.Calls

/-!
# What a service can do

`Change policy s a t notes` lists everything that an action can do to a service, like the relations
of the same kind for the pipeline and the pool. What happens in the pool of a service is a change of
the pool (`Pool.Change`), and the service adds what it makes of a call that returns there.

## The pool in the service

The pool runs along with the service that is built on it: the collector is its reader, and the other
actions of the service are actions of the pool or leave it alone (`State.pool_runs`). So whatever is
shown of the runs of a pool holds of the pool of a service.
-/

namespace Conveyor.Moderation.Service

open Time

/-! ### What a history says -/

namespace Note

/-- What happened in the pool. The collector receives verdicts from it. -/
@[simp] def inPool : Note → List Pool.Note
  | pool note => [note]
  | collected v => [.received v]
  | _ => []

/-- The verdict that the collector took. -/
@[simp] def collected? : Note → Option Verdict
  | collected v => some v
  | _ => none

/-- The verdict that a client fetched. -/
@[simp] def popped? : Note → Option Verdict
  | popped v => some v
  | _ => none

end Note

/-- What happened in the pool of a service, in order. -/
def inPool (notes : List Note) : List Pool.Note := notes.flatMap Note.inPool

/-- The verdicts that the collector took, in order. -/
abbrev collected (notes : List Note) : List Verdict := extract Note.collected? notes

/-- The verdicts that clients fetched, in order. -/
abbrev popped (notes : List Note) : List Verdict := extract Note.popped? notes

section InPool

variable (notes later : List Note) (news : List Pool.Note)

@[simp] theorem inPool_nil : inPool [] = [] := rfl

@[simp] theorem inPool_cons (n : Note) : inPool (n :: notes) = n.inPool ++ inPool notes := rfl

@[simp] theorem inPool_append : inPool (notes ++ later) = inPool notes ++ inPool later :=
  List.flatMap_append

@[simp] theorem inPool_map : inPool (news.map .pool) = news := by
  induction news with
  | nil => rfl
  | cons n news ih => rw [List.map_cons, inPool_cons, ih]; rfl

@[simp] theorem collected_map : collected (news.map .pool) = [] := by
  induction news with
  | nil => rfl
  | cons n news ih => simpa using ih

@[simp] theorem popped_map : popped (news.map .pool) = [] := by
  induction news with
  | nil => rfl
  | cons n news ih => simpa using ih

end InPool

/-! ### Actions -/

namespace Action

/-- The action of the pool that an action of the service is made of. -/
def onPool? : Action → Option Pool.Action
  | submit j => some (.enqueue j)
  | issue id .start => some (.issue ⟨id, .start⟩)
  | issue id .stopPool => some (.issue ⟨id, .stop⟩)
  | issue id .stop => some (.issue ⟨id, .stop⟩)
  | step (.pool x) now => some (.step x now)
  | _ => none

/-- The action of the pool that runs along with an action of the service. -/
def mirrored? : Action → Option Pool.Action
  | step .collect _ => some .receive
  | a => a.onPool?

/-- The call that joins those that have not returned when it makes its call to the pool. -/
def joining : Action → List Pending
  | issue id .start => [⟨id, .atPool⟩]
  | issue id .stopPool => [⟨id, .atPool⟩]
  | issue id .stop => [⟨id, .atPoolThenCollector⟩]
  | _ => []

/-- The number of the call that is issued. -/
@[simp] def callId? : Action → Option Nat
  | issue id _ => some id
  | _ => none

end Action

namespace State

/-- The calls that have not returned, but for the one with this number. -/
def others (s : State) (id : Nat) : List Pending := s.pending.filter (·.id != id)

/-- The service with what became of its pool in an action. -/
def withPool (s : State) (pool : Pool.State) (a : Action) : State :=
  { s with pool, pending := s.pending ++ a.joining }

end State

/-! ### Changes -/

/-- Everything that can happen in an action. -/
inductive Change (policy : Policy) (s : State) : Action → State → List Note → Prop where
  /-- Something happens in the pool, and no call here was waiting for it. -/
  | work {a : Action} {b : Pool.Action} {pool : Pool.State} {news : List Pool.Note}
      (onPool : a.onPool? = some b) (acts : s.pool.act policy b = some (pool, news))
      (unclaimed : ∀ p ∈ (s.withPool pool a).pending, .returned p.id ∈ news →
        ⟨p.id, .atCollector⟩ ∈ (s.withPool pool a).pending) :
      Change policy s a (s.withPool pool a) (news.map .pool)
  /-- A call returns from the pool, and the call it was made for returns. -/
  | returnFromPool {a : Action} {b : Pool.Action} {pool : Pool.State} {news : List Pool.Note}
      {id : Nat} (onPool : a.onPool? = some b) (acts : s.pool.act policy b = some (pool, news))
      (returned : .returned id ∈ news) (waiting : ⟨id, .atPool⟩ ∈ (s.withPool pool a).pending) :
      Change policy s a { s.withPool pool a with pending := (s.withPool pool a).others id }
        (news.map .pool ++ [.returned id])
  /-- A call returns from the pool, and the call it was made for takes the collector's handle. -/
  | turnFromPool {a : Action} {b : Pool.Action} {pool : Pool.State} {news : List Pool.Note}
      {id : Nat} (onPool : a.onPool? = some b) (acts : s.pool.act policy b = some (pool, news))
      (returned : .returned id ∈ news)
      (waiting : ⟨id, .atPoolThenCollector⟩ ∈ (s.withPool pool a).pending)
      (untaken : s.handle = true) :
      Change policy s a
        { s.withPool pool a with
          handle := false
          pending := (s.withPool pool a).others id ++ [⟨id, .atCollector⟩] }
        (news.map .pool)
  /-- A call returns from the pool, and the call it was made for finds the handle taken. -/
  | skipFromPool {a : Action} {b : Pool.Action} {pool : Pool.State} {news : List Pool.Note}
      {id : Nat} (onPool : a.onPool? = some b) (acts : s.pool.act policy b = some (pool, news))
      (returned : .returned id ∈ news)
      (waiting : ⟨id, .atPoolThenCollector⟩ ∈ (s.withPool pool a).pending)
      (taken : s.handle = false) :
      Change policy s a { s.withPool pool a with pending := (s.withPool pool a).others id }
        (news.map .pool ++ [.returned id])
  /-- A call takes the handle of the collector. -/
  | turn {id : Nat} (untaken : s.handle = true) :
      Change policy s (.issue id .shutdown)
        { s with handle := false, pending := s.others id ++ [⟨id, .atCollector⟩] } []
  /-- A call finds the handle of the collector taken. -/
  | skip {id : Nat} (taken : s.handle = false) :
      Change policy s (.issue id .shutdown) { s with pending := s.others id } [.returned id]
  /-- A client fetches the oldest verdict. -/
  | pop {v : Verdict} {rest : List Verdict} (next : s.store.waiting = v :: rest) :
      Change policy s .pop { s with store := ⟨rest⟩ } [.popped v]
  /-- A client finds the store empty. -/
  | popNothing (empty : s.store.waiting = []) : Change policy s .pop s []
  /-- The collector takes the oldest verdict. -/
  | collect {v : Verdict} {channel : List Verdict} {now : Timestamp}
      (ready : s.collector = .ready) (next : s.pool.channel = v :: channel) :
      Change policy s (.step .collect now)
        { s with pool := { s.pool with channel }, collector := .carrying v } [.collected v]
  /-- The collector stores the verdict that it has taken. -/
  | store {v : Verdict} {now : Timestamp} (carrying : s.collector = .carrying v) :
      Change policy s (.step .store now) { s with collector := .ready, store := s.store.push v }
        [.stored v]
  /-- The collector finds the channel closed and empty, and ends. -/
  | finish {now : Timestamp} (ready : s.collector = .ready) (empty : s.pool.channel = [])
      (closed : s.pool.sends = false) :
      Change policy s (.step .finish now) { s with collector := .ended } []
  /-- A call that waits for the collector finds that it has ended. -/
  | join {id : Nat} {now : Timestamp} (ended : s.collector = .ended)
      (waiting : ⟨id, .atCollector⟩ ∈ s.pending) :
      Change policy s (.step (.join id) now) { s with pending := s.others id } [.returned id]

namespace State

variable {policy : Policy} {s t : State} {a : Action} {b : Pool.Action} {new : List Note}

/-! ### Inversion -/

/-- Notes of the pool without a return change nothing else. -/
theorem absorb_of_quiet {news : List Pool.Note} (h : ∀ id, .returned id ∉ news) :
    s.absorb news = (s, news.map .pool) := by
  induction news with
  | nil => rfl
  | cons n news ih =>
    have hlater : s.absorb news = (s, news.map .pool) :=
      ih fun id hid ↦ h id (List.mem_cons_of_mem _ hid)
    cases n with
    | returned id => exact absurd List.mem_cons_self (h id)
    | _ => simp [absorb, hlater]

/-- When a call returns last, the call it was made for proceeds. -/
theorem absorb_returned {rest : List Pool.Note} (h : ∀ id, .returned id ∉ rest) (id : Nat) :
    s.absorb (rest ++ [.returned id]) =
      ((s.proceed id).1, (rest ++ [Pool.Note.returned id]).map .pool ++ (s.proceed id).2) := by
  induction rest with
  | nil => simp [absorb]
  | cons n rest ih =>
    have hlater := ih fun id hid ↦ h id (List.mem_cons_of_mem _ hid)
    cases n with
    | returned id => exact absurd List.mem_cons_self (h id)
    | _ => simp [absorb, hlater]

/-- An action made of one of the pool is possible if that is, and takes over what happens. -/
theorem act_of_onPool (h : a.onPool? = some b) :
    s.act policy a =
      (s.pool.act policy b).map fun p ↦ (s.withPool p.1 a).absorb p.2 := by
  unfold Action.onPool? at h
  split at h
  case h_1 j =>
    obtain rfl := Option.some.inj h
    have hquiet : ∀ id, .returned id ∉ (s.pool.enqueue j).2.2 := by
      unfold Pool.State.enqueue
      split <;> simp
    simp [act, submit, Pool.State.act, withPool, Action.joining, absorb_of_quiet hquiet]
  case h_5 x now =>
    obtain rfl := Option.some.inj h
    rcases hstep : s.pool.step policy now x with - | ⟨pool, news⟩
    · simp [act, step, Pool.State.act, hstep]
    · simp [act, step, Pool.State.act, hstep, withPool, Action.joining]
  case h_6 => simp at h
  all_goals
    obtain rfl := Option.some.inj h
    rfl

/-- What becomes of the call that a call to the pool was made for. -/
theorem change_proceed (honPool : a.onPool? = some b) {pool : Pool.State} {news : List Pool.Note}
    (hacts : s.pool.act policy b = some (pool, news)) {id : Nat} (hreturned : .returned id ∈ news)
    (honly : ∀ other, .returned other ∈ news → other = id) :
    Change policy s a ((s.withPool pool a).proceed id).1
      (news.map .pool ++ ((s.withPool pool a).proceed id).2) := by
  unfold proceed
  split
  case h_1 k hfind =>
    obtain rfl : k = id := by simpa using List.find?_some hfind
    exact .returnFromPool honPool hacts hreturned (List.mem_of_find?_eq_some hfind)
  case h_2 k hfind =>
    obtain rfl : k = id := by simpa using List.find?_some hfind
    have hwaiting := List.mem_of_find?_eq_some hfind
    unfold turnToCollector
    split
    case isTrue huntaken =>
      rw [List.append_nil]
      exact .turnFromPool honPool hacts hreturned hwaiting huntaken
    case isFalse htaken =>
      exact .skipFromPool honPool hacts hreturned hwaiting (by simpa [withPool] using htaken)
  case h_3 hpool hthen =>
    rw [List.append_nil]
    refine .work honPool hacts fun p hp hp' ↦ ?_
    -- A call with this number is found, and it waits for the collector.
    have hpid := honly p.id hp'
    rcases hfind : (s.withPool pool a).pending.find? (·.id == id) with - | ⟨k, stage⟩
    · simpa [hpid] using List.find?_eq_none.1 hfind p hp
    obtain rfl : k = id := by simpa using List.find?_some hfind
    cases stage with
    | atPool => exact absurd hfind (hpool k)
    | atPoolThenCollector => exact absurd hfind (hthen k)
    | atCollector => exact hpid ▸ List.mem_of_find?_eq_some hfind

/-- **Inversion.** Every action that is possible is one of the changes. -/
theorem change (hs : s.pool.Coupled) (h : s.act policy a = some (t, new)) :
    Change policy s a t new := by
  rcases honPool : a.onPool? with - | b
  · cases a with
    | submit j => simp [Action.onPool?] at honPool
    | pop =>
      simp only [act, pop, Store.pop, Option.some.injEq] at h
      rcases hwaiting : s.store.waiting with - | ⟨v, rest⟩
      · simp only [hwaiting] at h
        obtain ⟨rfl, rfl⟩ := Prod.mk.inj h
        exact .popNothing hwaiting
      · simp only [hwaiting] at h
        obtain ⟨rfl, rfl⟩ := Prod.mk.inj h
        exact .pop hwaiting
    | issue id request =>
      cases request with
      | shutdown =>
        simp only [act, issue, turnToCollector, Option.some.injEq] at h
        split at h
        case isTrue huntaken =>
          obtain ⟨rfl, rfl⟩ := Prod.mk.inj h
          exact .turn huntaken
        case isFalse htaken =>
          obtain ⟨rfl, rfl⟩ := Prod.mk.inj h
          exact .skip (by simpa using htaken)
      | _ => simp [Action.onPool?] at honPool
    | step x now =>
      cases x with
      | pool x => simp [Action.onPool?] at honPool
      | collect =>
        simp only [act, step] at h
        split at h
        case h_1 hready hnext =>
          obtain ⟨rfl, rfl⟩ := Prod.mk.inj (Option.some.inj h)
          exact .collect hready hnext
        case h_2 => simp at h
      | store =>
        simp only [act, step] at h
        split at h
        case h_1 hcarrying =>
          obtain ⟨rfl, rfl⟩ := Prod.mk.inj (Option.some.inj h)
          exact .store hcarrying
        case h_2 => simp at h
      | finish =>
        simp only [act, step] at h
        split at h
        case h_1 hready hempty =>
          split at h
          case isTrue => simp at h
          case isFalse hclosed =>
            obtain ⟨rfl, rfl⟩ := Prod.mk.inj (Option.some.inj h)
            exact .finish hready hempty (by simpa using hclosed)
        case h_2 => simp at h
      | join id =>
        simp only [act, step] at h
        split at h
        case h_1 hended =>
          split at h
          case isTrue hwaiting =>
            obtain ⟨rfl, rfl⟩ := Prod.mk.inj (Option.some.inj h)
            exact .join hended (by simpa using hwaiting)
          case isFalse => simp at h
        case h_2 => simp at h
  · rw [act_of_onPool honPool, Option.map_eq_some_iff] at h
    obtain ⟨⟨pool, news⟩, hacts, habsorb⟩ := h
    rcases (hs.change hacts).returned_last with hquiet | ⟨id, rest, rfl, hquiet⟩
    · rw [absorb_of_quiet hquiet] at habsorb
      obtain ⟨rfl, rfl⟩ := Prod.mk.inj habsorb
      exact .work honPool hacts fun p _ hp ↦ absurd hp (hquiet p.id)
    · rw [absorb_returned hquiet] at habsorb
      obtain ⟨rfl, rfl⟩ := Prod.mk.inj habsorb
      refine change_proceed honPool hacts (List.mem_append_right _ List.mem_cons_self) ?_
      intro other hother
      simpa [hquiet other] using hother

end State

/-! ### The pool of a service -/

section Pool

variable {policy : Policy} {s t : State} {a : Action} {as : List Action} {b : Pool.Action}
  {notes new : List Note}

theorem Action.mirrored?_of_onPool (h : a.onPool? = some b) : a.mirrored? = some b := by
  unfold mirrored?
  split
  · simp [onPool?] at h
  · exact h

/-- The service leaves the receiving end of the channel to the collector. -/
theorem Action.reader_of_onPool (h : a.onPool? = some b) {pool t : Pool.State}
    {news : List Pool.Note} (hchange : Pool.Change policy pool b t news) :
    t.reader = pool.reader ∧ Pool.received news = [] := by
  have hb : b ≠ .takeResults ∧ b ≠ .receive ∧ b ≠ .dropResults := by
    unfold onPool? at h
    split at h
    case h_6 => simp at h
    all_goals
      obtain rfl := Option.some.inj h
      simp
  cases hchange with
  | takeResults => exact absurd rfl hb.1
  | receive => exact absurd rfl hb.2.1
  | throwAway => exact absurd rfl hb.2.2
  | _ => exact ⟨rfl, by simp⟩

/-- A call to the pool is made on behalf of a call with the same number. -/
theorem Action.issue_of_mirrored {call : Call} (h : a.mirrored? = some (.issue call)) :
    ∃ request, a = .issue call.id request ∧ (request = .stop → call.request = .stop) := by
  cases a with
  | issue id request =>
    cases request <;> simp [mirrored?, onPool?] at h
    all_goals
      obtain rfl := h
      exact ⟨_, rfl, by simp⟩
  | step x now => cases x <;> simp [mirrored?, onPool?] at h
  | _ => simp [mirrored?, onPool?] at h

/-- The pool makes the mirrored action, if there is one. -/
theorem Change.mirrored (h : Change policy s a t new) (hreader : s.pool.reader = .taken) :
    (∃ b, a.mirrored? = some b ∧ s.pool.act policy b = some (t.pool, inPool new)) ∨
      a.mirrored? = none ∧ t.pool = s.pool ∧ inPool new = [] := by
  cases h with
  | work onPool acts | returnFromPool onPool acts | turnFromPool onPool acts
  | skipFromPool onPool acts =>
    exact .inl ⟨_, Action.mirrored?_of_onPool onPool, by simpa [State.withPool] using acts⟩
  | collect ready next =>
    refine .inl ⟨.receive, rfl, ?_⟩
    simp [Pool.State.act, Pool.State.receive, hreader, next]
  | _ => exact .inr ⟨rfl, rfl, by simp⟩

/-- The collector stays the reader of the channel. -/
theorem Change.reader_eq (hs : s.pool.Coupled) (h : Change policy s a t new) :
    t.pool.reader = s.pool.reader := by
  cases h with
  | work onPool acts | returnFromPool onPool acts | turnFromPool onPool acts
  | skipFromPool onPool acts => exact (Action.reader_of_onPool onPool (hs.change acts)).1
  | _ => rfl

/-- The verdicts that are received from the pool are those that the collector took. -/
theorem Change.received_eq (hs : s.pool.Coupled) (h : Change policy s a t new) :
    Pool.received (inPool new) = collected new := by
  cases h with
  | work onPool acts | returnFromPool onPool acts | turnFromPool onPool acts
  | skipFromPool onPool acts =>
    simp [(Action.reader_of_onPool onPool (hs.change acts)).2]
  | _ => simp

/-- The pool of a service runs along with it. -/
theorem State.pool_runs (hs : s.pool.Coupled) (hreader : s.pool.reader = .taken)
    (h : Runs (act · policy) s as t notes) :
    t.pool.reader = .taken ∧
      Runs (Pool.State.act · policy) s.pool (as.filterMap Action.mirrored?) t.pool
        (inPool notes) := by
  induction h with
  | refl => exact ⟨hreader, .refl⟩
  | tail _ act_eq ih =>
    obtain ⟨ihreader, ihruns⟩ := ih
    have ht := hs.of_runs ihruns
    have hchange := change ht act_eq
    refine ⟨(hchange.reader_eq ht).trans ihreader, ?_⟩
    rw [List.filterMap_append, inPool_append]
    rcases hchange.mirrored ihreader with ⟨b, hb, hacts⟩ | ⟨hb, hpool, hnew⟩
    · simpa [hb] using ihruns.tail hacts
    · simpa [hb, hpool, hnew] using ihruns

/-- The runs of a service. -/
theorem State.run_iff : s.run policy as = some (t, notes) ↔ Runs (act · policy) s as t notes := by
  refine @Runs.iff_of_eqns _ _ _ (act · policy) s t as notes (run · policy) ?_ ?_
  · exact fun _ ↦ rfl
  · intro s a as
    rw [run]
    rcases s.act policy a with - | ⟨t, new⟩
    · rfl
    · cases hrun : t.run policy as <;> simp [hrun]

/-- An induction over the changes of a run. -/
theorem State.runs_induction {motive : List Action → State → List Note → Prop}
    (hs : s.pool.Coupled) (hreader : s.pool.reader = .taken)
    (h : Runs (act · policy) s as t notes) (refl : motive [] s [])
    (tail : ∀ {as t notes a u new}, t.pool.Coupled → Change policy t a u new → motive as t notes →
      motive (as ++ [a]) u (notes ++ new)) : motive as t notes := by
  induction h with
  | refl => exact refl
  | tail run act_eq ih =>
    have ht := hs.of_runs (pool_runs hs hreader run).2
    exact tail ht (change ht act_eq) ih

end Pool

end Conveyor.Moderation.Service
