import Mathlib.Data.List.Chain
import Conveyor.Proofs.Pipeline.Phases
import Conveyor.Proofs.Pool.Deaths

/-!
# One start and one handover

A service is started at most once, and only then it hands over the receiving end of its queue, to the
task or the workers that come into being in the same action. So its lifecycle can be read off the ends
of the queue together with what came into being in the whole history. The main statement is
`handover_of_run`, for the pipeline and the pool together.

## What is counted

A call that tries to start a service, or to stop it, finds the lifecycle in some state, and that
decides both what the call is told (`Lifecycle.startAnswers`, `Lifecycle.stopAnswers`) and where the
lifecycle goes. How often calls can be told that they made the move is a matter of lifecycles alone
(`Lifecycle.Won`). What came into being is read off the moments of a run where the history says that
the service was started (`Starter.spawned`). That this happens once for each call that made the move
means that no such call finds an end missing and returns early.
-/

namespace Conveyor

/-! ### Who made the move -/

namespace Lifecycle

/-- A state on the way to another one, or the same. -/
inductive Moves : Lifecycle → Lifecycle → Prop
  /-- Nothing changes. -/
  | stay (l : Lifecycle) : Moves l l
  /-- The service is started. -/
  | start : Moves created running
  /-- The running service is stopped. -/
  | stop : Moves running stopped
  /-- The service is stopped before it was started. -/
  | abandon : Moves created stopped

theorem moves_after (l : Lifecycle) (r : Request) : Moves l (l.after r) := by
  cases l <;> cases r <;> constructor

/-- What a call is told that tries to start a service. -/
def startAnswers (l : Lifecycle) : Request → List Bool
  | .start => [l.tryStart.1]
  | .stop => []

/-- What a call is told that tries to stop a service. -/
def stopAnswers (l : Lifecycle) : Request → List (Option Lifecycle)
  | .start => []
  | .stop => [l.tryStop.1]

theorem count_startAnswers (l : Lifecycle) (r : Request) :
    (l.startAnswers r).count true = if l = .created ∧ r = .start then 1 else 0 := by
  cases l <;> cases r <;> rfl

theorem countP_stopAnswers (l : Lifecycle) (r : Request) :
    (l.stopAnswers r).countP Option.isSome = if l ≠ .stopped ∧ r = .stop then 1 else 0 := by
  cases l <;> cases r <;> rfl

/-- How many calls were told that they made a move, of a service that is in the state `l` now. -/
structure Won (l : Lifecycle) (starts : List Bool) (stops : List (Option Lifecycle)) : Prop where
  /-- At most one call has started the service. -/
  start_le : starts.count true ≤ 1
  /-- None has, if it is as it was created. -/
  created : l = .created → starts.count true = 0
  /-- One has, if it is running. -/
  running : l = .running → starts.count true = 1
  /-- One call has stopped the service as soon as it is stopped. -/
  stop_eq : stops.countP Option.isSome = if l = .stopped then 1 else 0

/-- One more call that tries. -/
theorem Won.after {l : Lifecycle} {starts : List Bool} {stops : List (Option Lifecycle)}
    (h : Won l starts stops) (r : Request) :
    Won (l.after r) (starts ++ l.startAnswers r) (stops ++ l.stopAnswers r) := by
  obtain ⟨hstart, hcreated, hrunning, hstop⟩ := h
  have hstarts : (starts ++ l.startAnswers r).count true =
      starts.count true + if l = .created ∧ r = .start then 1 else 0 := by
    rw [List.count_append, count_startAnswers]
  have hstops : (stops ++ l.stopAnswers r).countP Option.isSome =
      (if l = .stopped then 1 else 0) + if l ≠ .stopped ∧ r = .stop then 1 else 0 := by
    rw [List.countP_append, countP_stopAnswers, hstop]
  refine ⟨?_, fun hl ↦ absurd hl (after_ne_created l r), ?_, ?_⟩
  · rw [hstarts]
    cases l <;> cases r <;> simp_all
  · rw [hstarts]
    cases l <;> cases r <;> simp_all [Lifecycle.after, tryStart, tryStop]
  · rw [hstops]
    cases l <;> cases r <;> rfl

end Lifecycle

/-! ### Machines that are started -/

/-- A machine whose calls start and stop it. When it is started, something of the type `T` comes into
being. -/
structure Starter (S A N T : Type) where
  /-- The state and the notes after an action. -/
  act : S → A → Option (S × List N)
  /-- The call that gets to work in an action. -/
  beginning? : S → A → Option Call
  /-- What a call does when it gets to work. -/
  begin : S → Call → S × List N
  /-- How far the service has come. -/
  lifecycle : S → Lifecycle
  /-- The sending end of the queue lies in the service. -/
  sender : S → Bool
  /-- The receiving end of the queue lies in the service. -/
  receiver : S → Bool
  /-- All that the service hands over at its start lies in it. A call that starts the service and
  finds something missing returns early. -/
  isReady : S → Bool
  /-- The service was started. -/
  isStarted : N → Bool
  /-- Those that have been set to work. -/
  crew : S → List T
  /-- An action in which a call gets to work is what the call does. -/
  act_of_beginning : ∀ {s a call}, beginning? s a = some call → act s a = some (begin s call)

namespace Starter

variable {S A N T : Type} (m : Starter S A N T)

/-- Those that came into being in an action that led to the state with these notes. -/
def born (after : S × List N) : List T :=
  (after.2.filter m.isStarted).flatMap fun _ ↦ m.crew after.1

/-- Those that came into being in a run, in order. -/
def spawned (s : S) (as : List A) : List T :=
  collect m.act (fun s a ↦ (m.act s a).toList.flatMap m.born) s as

/-- What calls were told in a run that tried to start the service, in order. -/
def startAnswers (s : S) (as : List A) : List Bool :=
  collect m.act
    (fun s a ↦ (m.beginning? s a).toList.flatMap ((m.lifecycle s).startAnswers ·.request)) s as

/-- What calls were told in a run that tried to stop the service, in order. -/
def stopAnswers (s : S) (as : List A) : List (Option Lifecycle) :=
  collect m.act
    (fun s a ↦ (m.beginning? s a).toList.flatMap ((m.lifecycle s).stopAnswers ·.request)) s as

/-- The states of the lifecycle before the actions of a run, in order. -/
def passage (s : S) (as : List A) : List Lifecycle :=
  collect m.act (fun s _ ↦ [m.lifecycle s]) s as

/-- What is so in each state of a service that sets `size` of them to work. -/
structure Laws (size : Nat) (s : S) : Prop where
  /-- Before the start all ends lie in the service. -/
  created : m.lifecycle s = .created →
    m.sender s = true ∧ m.receiver s = true ∧ m.isReady s = true
  /-- The start has handed the receiving end over. -/
  running : m.lifecycle s = .running → m.sender s = true ∧ m.receiver s = false
  /-- After the stop neither end lies in the service. -/
  stopped : m.lifecycle s = .stopped → m.sender s = false ∧ m.receiver s = false
  /-- Only a call that gets to work moves the lifecycle. -/
  lifecycle : ∀ {a t new}, m.act s a = some (t, new) →
    m.lifecycle t = (m.lifecycle s).afterAll ((m.beginning? s a).toList.map Call.request)
  /-- Only a call that starts the service lets them come into being. -/
  born : ∀ {a t new}, m.act s a = some (t, new) → (m.born (t, new)).length =
    size * ((m.beginning? s a).toList.flatMap ((m.lifecycle s).startAnswers ·.request)).count true
  /-- Those that come into being join those that were there, and nobody else does. -/
  crew : ∀ {a t new}, m.act s a = some (t, new) →
    (m.crew t).length = (m.crew s).length + (m.born (t, new)).length

/-- What is so of the service `start` after the run `as`, if it sets `size` of them to work. -/
structure Handover (size : Nat) (start : S) (as : List A) (s : S) : Prop where
  /-- The service is as it was created as long as both ends of the queue lie in it and nothing has
  come into being. -/
  created_iff : m.lifecycle s = .created ↔
    m.sender s = true ∧ m.receiver s = true ∧ m.spawned start as = []
  /-- The service is running as long as the sending end lies in it, the receiving end was handed
  over, and `size` of them have come into being in the whole run. -/
  running_iff : m.lifecycle s = .running ↔
    m.sender s = true ∧ m.receiver s = false ∧ (m.spawned start as).length = size
  /-- Neither end lies in the service when it is stopped. -/
  stopped : m.lifecycle s = .stopped → m.sender s = false ∧ m.receiver s = false
  /-- The lifecycle has only moved forward. -/
  forward : (m.passage start as ++ [m.lifecycle s]).IsChain Lifecycle.Moves
  /-- At most one call was told that it has started the service. -/
  one_start : (m.startAnswers start as).count true ≤ 1
  /-- At most one call was told what it has stopped. -/
  one_stop : (m.stopAnswers start as).countP Option.isSome ≤ 1
  /-- They came into being if a call was told that it has started the service. -/
  length_spawned : (m.spawned start as).length = size * (m.startAnswers start as).count true
  /-- None of them was ever replaced, and nobody else was set to work. -/
  length_crew : (m.crew s).length = (m.spawned start as).length
  /-- A call that starts the service finds all that it hands over, and does not return early. -/
  isReady : ∀ a call, m.beginning? s a = some call → call.request = .start →
    (m.lifecycle s).tryStart.1 = true →
      m.isReady s = true ∧ (m.born (m.begin s call)).length = size

variable {m} {size : Nat} {s t u : S} {a : A} {as : List A} {notes new : List N}

/-- What came into being in a run with one more action. -/
theorem spawned_concat (h : Runs m.act s as t notes) (hact : m.act t a = some (u, new)) :
    m.spawned s (as ++ [a]) = m.spawned s as ++ m.born (u, new) := by
  rw [spawned, h.collect_concat, hact]
  simp [spawned]

section Runs

variable (hlaws : ∀ {as t notes}, Runs m.act s as t notes → m.Laws size t)
  (h : Runs m.act s as t notes)

include hlaws h

/-- At most one call starts the service, and at most one stops it. -/
theorem won_of_runs (hnew : m.lifecycle s = .created) :
    (m.lifecycle t).Won (m.startAnswers s as) (m.stopAnswers s as) := by
  induction h with
  | refl => constructor <;> simp [startAnswers, stopAnswers, collect, hnew]
  | @tail as u notes a t new run act_eq ih =>
    have hstarts : m.startAnswers s (as ++ [a]) = m.startAnswers s as ++
        (m.beginning? u a).toList.flatMap ((m.lifecycle u).startAnswers ·.request) :=
      run.collect_concat _
    have hstops : m.stopAnswers s (as ++ [a]) = m.stopAnswers s as ++
        (m.beginning? u a).toList.flatMap ((m.lifecycle u).stopAnswers ·.request) :=
      run.collect_concat _
    rw [hstarts, hstops, (hlaws run).lifecycle act_eq]
    -- At most one call gets to work in an action.
    rcases m.beginning? u a with - | call
    · simpa [Lifecycle.afterAll] using ih
    · simpa [Lifecycle.afterAll] using ih.after call.request

/-- As often as a call was told that it has started the service, they came into being. -/
theorem length_spawned_of_runs :
    (m.spawned s as).length = size * (m.startAnswers s as).count true := by
  induction h with
  | refl => rfl
  | @tail as u notes a t new run act_eq ih =>
    have hstarts : m.startAnswers s (as ++ [a]) = m.startAnswers s as ++
        (m.beginning? u a).toList.flatMap ((m.lifecycle u).startAnswers ·.request) :=
      run.collect_concat _
    rw [spawned_concat run act_eq, hstarts, List.length_append, List.count_append, Nat.mul_add, ih,
      (hlaws run).born act_eq]

/-- Nobody is in the crew but those that came into being. -/
theorem length_crew_of_runs (hnone : m.crew s = []) :
    (m.crew t).length = (m.spawned s as).length := by
  induction h with
  | refl => simp [hnone, spawned, collect]
  | @tail as u notes a t new run act_eq ih =>
    rw [spawned_concat run act_eq, List.length_append, (hlaws run).crew act_eq, ih]

/-- The lifecycle goes the way of all lifecycles. -/
theorem passage_isChain_of_runs :
    (m.passage s as ++ [m.lifecycle t]).IsChain Lifecycle.Moves := by
  induction h with
  | refl => exact .singleton _
  | @tail as u notes a t new run act_eq ih =>
    have hmoves : Lifecycle.Moves (m.lifecycle u) (m.lifecycle t) := by
      rw [(hlaws run).lifecycle act_eq]
      rcases m.beginning? u a with - | call
      · exact .stay _
      · exact Lifecycle.moves_after _ _
    rw [passage, run.collect_concat]
    refine ih.append (.singleton _) fun l hl k hk ↦ ?_
    rw [List.getLast?_concat, Option.mem_some_iff] at hl
    rw [List.head?_singleton, Option.mem_some_iff] at hk
    exact hl ▸ hk ▸ hmoves

/-- Whatever obeys the laws is started once and hands its end over once. -/
theorem handover_of_laws (hnew : m.lifecycle s = .created) (hnone : m.crew s = []) :
    m.Handover size s as t := by
  have ht := hlaws h
  have hwon := won_of_runs hlaws h hnew
  have hlength := length_spawned_of_runs hlaws h
  -- Each state of the lifecycle has ends of its own, so the ends tell the state. What came into being
  -- is counted by the calls that were told that they have started the service.
  exact {
    created_iff := by
      refine ⟨fun hcreated ↦ ?_, fun ⟨hsender, hreceiver, _⟩ ↦ ?_⟩
      · rw [hwon.created hcreated] at hlength
        obtain ⟨hsender, hreceiver, -⟩ := ht.created hcreated
        exact ⟨hsender, hreceiver, List.eq_nil_of_length_eq_zero hlength⟩
      · rcases hlife : m.lifecycle t with - | - | -
        · rfl
        · simp [(ht.running hlife).2] at hreceiver
        · simp [(ht.stopped hlife).1] at hsender
    running_iff := by
      refine ⟨fun hrunning ↦ ?_, fun ⟨hsender, hreceiver, _⟩ ↦ ?_⟩
      · obtain ⟨hsender, hreceiver⟩ := ht.running hrunning
        exact ⟨hsender, hreceiver, by rw [hlength, hwon.running hrunning, Nat.mul_one]⟩
      · rcases hlife : m.lifecycle t with - | - | -
        · simp [(ht.created hlife).2.1] at hreceiver
        · rfl
        · simp [(ht.stopped hlife).1] at hsender
    stopped := ht.stopped
    forward := passage_isChain_of_runs hlaws h
    one_start := hwon.start_le
    one_stop := by
      rw [hwon.stop_eq]
      split <;> decide
    length_spawned := hlength
    length_crew := length_crew_of_runs hlaws h hnone
    isReady := fun a call hbegun hstart hmoves ↦ by
      have hcreated : m.lifecycle t = .created := by
        revert hmoves
        cases m.lifecycle t <;> simp [Lifecycle.tryStart]
      have hborn := ht.born (m.act_of_beginning hbegun)
      simp only [hbegun, Option.toList_some, List.flatMap_singleton, hstart, hcreated] at hborn
      exact ⟨(ht.created hcreated).2.2, hborn.trans (Nat.mul_one size)⟩ }

end Runs

end Starter

/-! ### The pipeline -/

namespace Pipeline

variable {σ : Type} {s t : State σ} {a : Action σ} {call : Call} {as : List (Action σ)}
  {notes new : List (Note σ)}

namespace Task

/-- The task, if there is one. -/
def toList : Task σ → List (Task σ)
  | unborn => []
  | task => [task]

theorem toList_of_ne_unborn {task : Task σ} (h : task ≠ .unborn) : task.toList = [task] := by
  cases task with
  | unborn => exact absurd rfl h
  | _ => rfl

end Task

/-- The pipeline was started. -/
@[simp] def Note.isStarted : Note σ → Bool
  | started => true
  | _ => false

@[simp] theorem filter_isStarted_callNext (e : Event) (rest : List σ) :
    (callNext e rest).filter Note.isStarted = [] := by
  cases rest <;> rfl

/-- An action in which a call gets to work is what the call does. -/
theorem State.act_of_beginning (h : s.beginning? a = some call) :
    s.act a = some (s.begin call) := by
  cases a with
  | issue other =>
    obtain ⟨hfree, rfl⟩ := State.lock_of_beginning_issue h
    rw [act, issue, hfree]
  | step x =>
    have hgranted := State.lock_of_beginning_step h
    cases x with
    | resume => rw [act, step, hgranted]
    | _ => simp [beginning?] at h
  | _ => simp [beginning?] at h

/-- The pipeline hands the receiving end over to the task. -/
def starter (σ : Type) : Starter (State σ) (Action σ) (Note σ) (Task σ) where
  act := State.act
  beginning? := State.beginning?
  begin := State.begin
  lifecycle := State.lifecycle
  sender := State.sender
  receiver := State.receiver
  isReady := State.receiver
  isStarted := Note.isStarted
  crew s := s.task.toList
  act_of_beginning := State.act_of_beginning

/-- A task comes into being if the call that gets to work starts the pipeline. -/
theorem Move.length_born_of_beginning (h : Move s a t new) (hbegun : s.beginning? a = some call) :
    ((new.filter Note.isStarted).flatMap fun _ ↦ t.task.toList).length =
      (s.lifecycle.startAnswers call.request).count true := by
  cases h with
  | start begun request created =>
    obtain rfl : _ = call := Option.some.inj (begun.symm.trans hbegun)
    rw [request, created]
    rfl
  | passBy begun nothing =>
    obtain rfl : _ = call := Option.some.inj (begun.symm.trans hbegun)
    rcases nothing with ⟨hstart, hcreated⟩ | ⟨hstop, hstopped⟩
    · rw [Lifecycle.count_startAnswers, if_neg fun h ↦ hcreated h.1]
      rfl
    · rw [hstop]
      rfl
  | close begun request | discard begun request =>
    obtain rfl : _ = call := Option.some.inj (begun.symm.trans hbegun)
    rw [request]
    rfl
  | wait busy => simp [State.beginning?, Turns.entering?] at hbegun
  | finishCall held | reportDeath held =>
    exact absurd held (State.not_held_of_beginning hbegun _)
  | _ => simp [State.beginning?] at hbegun

/-- Nothing else starts the pipeline. -/
theorem Move.isStarted_of_not_beginning (h : Move s a t new) (hnone : s.beginning? a = none) :
    new.filter Note.isStarted = [] := by
  cases h with
  | start begun | passBy begun | close begun | discard begun => simp [begun] at hnone
  | _ => simp

/-- A task that comes into being is the only one. -/
theorem Move.length_crew (hs : s.Coupled) (h : Move s a t new) :
    t.task.toList.length =
      s.task.toList.length + ((new.filter Note.isStarted).flatMap fun _ ↦ t.task.toList).length := by
  cases h with
  | start begun request created =>
    rw [(hs.created created).2.2]
    rfl
  | pull idle =>
    rw [Task.toList_of_ne_unborn (Task.ne_unborn_of_isAlive (Task.isAlive_turnTo _ _ _)), idle]
    simp [Task.toList]
  | reply calling =>
    rw [Task.toList_of_ne_unborn (Task.ne_unborn_of_isAlive (Task.isAlive_turnTo _ _ _)), calling]
    simp [Task.toList]
  | die calling => simp [calling, Task.toList]
  | finish idle => simp [idle, Task.toList]
  | _ => simp

/-- A pipeline obeys the laws: it sets one task to work. -/
theorem State.Coupled.laws (hs : s.Coupled) : (starter σ).Laws 1 s where
  created hcreated := by
    obtain ⟨hsender, hreceiver, -⟩ := hs.created hcreated
    exact ⟨hsender, hreceiver, hreceiver⟩
  running hrunning := ⟨(hs.running hrunning).1, (hs.running hrunning).2.1⟩
  stopped := hs.stopped
  lifecycle {a t new} hact := by
    have hmove := hs.move hact
    show t.lifecycle = s.lifecycle.afterAll ((s.beginning? a).toList.map Call.request)
    rcases hbegun : s.beginning? a with - | call
    · exact hmove.lifecycle_of_not_beginning hbegun
    · exact hmove.lifecycle_of_beginning hbegun
  born {a t new} hact := by
    have hmove := hs.move hact
    rw [Nat.one_mul]
    show ((new.filter Note.isStarted).flatMap fun _ ↦ t.task.toList).length =
      ((s.beginning? a).toList.flatMap (s.lifecycle.startAnswers ·.request)).count true
    rcases hbegun : s.beginning? a with - | call
    · rw [hmove.isStarted_of_not_beginning hbegun]
      rfl
    · rw [hmove.length_born_of_beginning hbegun]
      simp
  crew hact := (hs.move hact).length_crew hs

/-- A run of a new pipeline hands the receiving end over once, to one task. -/
theorem handover_of_runs (capacity : Nat) (minLevel : Level)
    (h : Runs State.act (State.new capacity minLevel) as t notes) :
    (starter σ).Handover 1 (State.new capacity minLevel) as t :=
  Starter.handover_of_laws (m := starter σ)
    (fun run ↦ ((State.Coupled.of_new capacity minLevel).of_runs run).laws) h rfl rfl

end Pipeline

/-! ### The pool -/

namespace Moderation.Pool

open Time

variable {policy : Policy} {s t : State} {a : Action} {call : Call} {as : List Action}
  {notes new : List Note}

/-- The pool was started. -/
@[simp] def Note.isStarted : Note → Bool
  | started => true
  | _ => false

/-- An action in which a call gets to work is what the call does. -/
theorem State.act_of_beginning (policy : Policy) (h : s.beginning? a = some call) :
    s.act policy a = some (s.begin call) := by
  cases a with
  | issue other =>
    obtain ⟨hfree, rfl⟩ := State.lock_of_beginning_issue h
    rw [act, issue, hfree]
  | step x now =>
    have hgranted := State.lock_of_beginning_step h
    cases x with
    | resume => rw [act, step, resume?, hgranted]
    | _ => simp [beginning?] at h
  | _ => simp [beginning?] at h

/-- The pool hands the receiving end of its queue over to the crew, with copies of its sending end of
the channel. -/
def starter (policy : Policy) : Starter State Action Note Worker where
  act := (State.act · policy)
  beginning? := State.beginning?
  begin := State.begin
  lifecycle := State.lifecycle
  sender := State.sender
  receiver := State.receiver
  isReady s := s.receiver && s.outlet
  isStarted := Note.isStarted
  crew := State.crew
  act_of_beginning := State.act_of_beginning policy

/-- A crew comes into being if the call that gets to work starts the pool. -/
theorem Change.length_born_of_beginning (h : Change policy s a t new)
    (hbegun : s.beginning? a = some call) :
    ((new.filter Note.isStarted).flatMap fun _ ↦ t.crew).length =
      s.workers * (s.lifecycle.startAnswers call.request).count true := by
  cases h with
  | start begun request created =>
    obtain rfl : _ = call := Option.some.inj (begun.symm.trans hbegun)
    rw [request, created]
    show (List.replicate s.workers Worker.arriving ++ []).length = s.workers * 1
    rw [List.append_nil, List.length_replicate, Nat.mul_one]
  | passBy begun nothing =>
    obtain rfl : _ = call := Option.some.inj (begun.symm.trans hbegun)
    rcases nothing with ⟨hstart, hcreated⟩ | ⟨hstop, hstopped⟩
    · rw [Lifecycle.count_startAnswers, if_neg fun h ↦ hcreated h.1]
      rfl
    · rw [hstop]
      rfl
  | close begun request | discard begun request =>
    obtain rfl : _ = call := Option.some.inj (begun.symm.trans hbegun)
    rw [request]
    rfl
  | leaveResults nothing =>
    rcases nothing with ⟨rfl, -⟩ | ⟨rfl, -⟩ | ⟨rfl, -⟩ <;> simp [State.beginning?] at hbegun
  | wait busy => simp [State.beginning?, Turns.entering?] at hbegun
  | passWorker held | reportDeath held | finishCall held =>
    exact absurd held (State.not_held_of_beginning hbegun _ _)
  | _ => simp [State.beginning?] at hbegun

/-- Nothing else starts the pool. -/
theorem Change.isStarted_of_not_beginning (h : Change policy s a t new)
    (hnone : s.beginning? a = none) : new.filter Note.isStarted = [] := by
  cases h with
  | start begun | passBy begun | close begun | discard begun => simp [begun] at hnone
  | _ => simp

/-- A crew that comes into being is the only one. -/
theorem Change.length_crew (hs : s.Coupled) (h : Change policy s a t new) :
    t.crew.length =
      s.crew.length + ((new.filter Note.isStarted).flatMap fun _ ↦ t.crew).length := by
  cases h with
  | start begun request created =>
    rw [(hs.created created).2.2.2, List.length_nil, Nat.zero_add]
    show _ = (List.replicate s.workers Worker.arriving ++ []).length
    rw [List.append_nil]
  | _ => simp [State.setWorker]

/-- A pool obeys the laws: it sets all its workers to work. -/
theorem State.Coupled.laws (hs : s.Coupled) : (starter policy).Laws s.workers s where
  created hcreated := by
    obtain ⟨hsender, hreceiver, houtlet, -⟩ := hs.created hcreated
    exact ⟨hsender, hreceiver, by simp [starter, hreceiver, houtlet]⟩
  running hrunning := ⟨(hs.running hrunning).1, (hs.running hrunning).2.1⟩
  stopped := hs.stopped
  lifecycle {a t new} hact := by
    have hchange := hs.change hact
    show t.lifecycle = s.lifecycle.afterAll ((s.beginning? a).toList.map Call.request)
    rcases hbegun : s.beginning? a with - | call
    · exact hchange.lifecycle_of_not_beginning hbegun
    · exact hchange.lifecycle_of_beginning hbegun
  born {a t new} hact := by
    have hchange := hs.change hact
    show ((new.filter Note.isStarted).flatMap fun _ ↦ t.crew).length = s.workers *
      ((s.beginning? a).toList.flatMap (s.lifecycle.startAnswers ·.request)).count true
    rcases hbegun : s.beginning? a with - | call
    · rw [hchange.isStarted_of_not_beginning hbegun]
      rfl
    · rw [hchange.length_born_of_beginning hbegun]
      simp
  crew hact := (hs.change hact).length_crew hs

/-- A run of a new pool hands the receiving end over once, to all its workers. -/
theorem handover_of_runs (workers capacity : Nat)
    (h : Runs (State.act · policy) (State.new workers capacity) as t notes) :
    (starter policy).Handover (State.new workers capacity).workers (State.new workers capacity)
      as t := by
  have hnew : (State.new workers capacity).Coupled := .of_new workers capacity
  refine Starter.handover_of_laws (m := starter policy) (fun run ↦ ?_) h rfl rfl
  rw [← workers_of_runs hnew run]
  exact (hnew.of_runs run).laws

end Moderation.Pool

/-! ### The statement -/

/-- **One start and one handover.** After every run of a new pipeline, and of a new pool, whatever the
clients and the scheduler did: the lifecycle agrees with the ends of the queue and with what came into
being in the whole run, which is one task or one crew of all the workers. The lifecycle has only moved
forward, one call at most was told that it has started the service and one that it has stopped it,
and no call that starts the service returns early. When a call of `stop` of the pool has returned,
its own sending end of the channel is gone, too. -/
theorem handover_of_run {σ : Type} (policy : Moderation.Policy) :
    (∀ (capacity : Nat) (minLevel : Level) (as : List (Pipeline.Action σ)) (s : Pipeline.State σ)
        (notes : List (Pipeline.Note σ)),
      (Pipeline.State.new capacity minLevel).run as = some (s, notes) →
        (Pipeline.starter σ).Handover 1 (.new capacity minLevel) as s) ∧
    ∀ (workers capacity : Nat) (as : List Moderation.Pool.Action) (s : Moderation.Pool.State)
        (notes : List Moderation.Pool.Note),
      (Moderation.Pool.State.new workers capacity).run policy as = some (s, notes) →
        (Moderation.Pool.starter policy).Handover
            (Moderation.Pool.State.new workers capacity).workers (.new workers capacity) as s ∧
          ∀ id, Moderation.Pool.IsStop as id → .returned id ∈ notes → s.outlet = false := by
  refine ⟨fun capacity minLevel as s notes hrun ↦ ?_,
    fun workers capacity as s notes hrun ↦ ⟨?_, fun id hid hreturned ↦ ?_⟩⟩
  · exact Pipeline.handover_of_runs capacity minLevel (Pipeline.State.run_iff.1 hrun)
  · exact Moderation.Pool.handover_of_runs workers capacity (Moderation.Pool.State.run_iff.1 hrun)
  · have hclosed :=
      Moderation.Pool.closed_of_returned (Moderation.Pool.State.run_iff.1 hrun) hid hreturned
    exact (Moderation.Pool.State.ends_of_closed hclosed).1

/-- Two calls of `start` and two of `stop`, while the pipeline works. -/
def sampleRestart : List (Pipeline.Action Nat) :=
  [.register 0, .issue ⟨0, .start⟩, .issue ⟨1, .start⟩,
    .enqueue (Pipeline.sampleEvent .info "a"), .step .pull, .issue ⟨2, .stop⟩, .issue ⟨3, .stop⟩,
    .step (.reply .delivered), .step .finish, .step .resume, .step .resume]

/-- Two calls of `stop` while the workers of a pool are idle, and a call of `start` that comes too
late. -/
def sampleLateStart : List Moderation.Pool.Action :=
  [.issue ⟨0, .start⟩, .step (.arrive 0) .epoch, .step (.arrive 1) .epoch, .issue ⟨1, .stop⟩,
    .issue ⟨2, .stop⟩, .issue ⟨3, .start⟩, .step (.leave 0) .epoch, .step (.leave 1) .epoch,
    .step .resume .epoch, .step .resume .epoch, .step .resume .epoch]

theorem handover_of_run_sample :
    (∃ s notes, (Pipeline.State.new 4 .info).run sampleRestart = some (s, notes) ∧
      s.lifecycle = .stopped ∧
      (Pipeline.starter Nat).startAnswers (.new 4 .info) sampleRestart = [true, false] ∧
      (Pipeline.starter Nat).stopAnswers (.new 4 .info) sampleRestart = [some .running, none] ∧
      (Pipeline.starter Nat).spawned (.new 4 .info) sampleRestart = [.idle [0]] ∧
      (Pipeline.starter Nat).Handover 1 (.new 4 .info) sampleRestart s) ∧
    ∃ s notes, (Moderation.Pool.State.new 2 1).run Moderation.Pool.samplePolicy sampleLateStart =
        some (s, notes) ∧
      s.lifecycle = .stopped ∧
      (Moderation.Pool.starter Moderation.Pool.samplePolicy).spawned (.new 2 1) sampleLateStart =
        [.arriving, .arriving] ∧
      (Moderation.Pool.starter Moderation.Pool.samplePolicy).Handover 2 (.new 2 1)
        sampleLateStart s ∧
      Moderation.Pool.IsStop sampleLateStart 1 ∧ .returned 1 ∈ notes ∧ s.outlet = false := by
  have hpipeline : ∃ s notes, (Pipeline.State.new 4 .info).run sampleRestart = some (s, notes) ∧
      s.lifecycle = .stopped ∧
      (Pipeline.starter Nat).startAnswers (.new 4 .info) sampleRestart = [true, false] ∧
      (Pipeline.starter Nat).stopAnswers (.new 4 .info) sampleRestart = [some .running, none] ∧
      (Pipeline.starter Nat).spawned (.new 4 .info) sampleRestart = [.idle [0]] :=
    ⟨_, _, rfl, rfl, rfl, rfl, rfl⟩
  have hpool : ∃ s notes, (Moderation.Pool.State.new 2 1).run Moderation.Pool.samplePolicy
        sampleLateStart = some (s, notes) ∧
      s.lifecycle = .stopped ∧
      (Moderation.Pool.starter Moderation.Pool.samplePolicy).spawned (.new 2 1) sampleLateStart =
        [.arriving, .arriving] ∧
      .returned 1 ∈ notes :=
    ⟨_, _, rfl, rfl, rfl, by decide⟩
  obtain ⟨s, notes, hrun, hlife, hstarts, hstops, hspawned⟩ := hpipeline
  obtain ⟨s', notes', hrun', hlife', hspawned', hreturned⟩ := hpool
  have hstop : Moderation.Pool.IsStop sampleLateStart 1 := by decide
  obtain ⟨hhandover, hhandover'⟩ :=
    handover_of_run (σ := Nat) Moderation.Pool.samplePolicy
  obtain ⟨hends, hclosed⟩ := hhandover' _ _ _ _ _ hrun'
  exact ⟨⟨s, notes, hrun, hlife, hstarts, hstops, hspawned, hhandover _ _ _ _ _ hrun⟩,
    ⟨s', notes', hrun', hlife', hspawned', hends, hstop, hreturned, hclosed 1 hstop hreturned⟩⟩

end Conveyor
