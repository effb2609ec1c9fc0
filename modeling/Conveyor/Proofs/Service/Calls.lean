import Conveyor.Proofs.Service.Changes

/-!
# Calls to a service

The calls of a service that have not returned, each at a stage that its kind comes to (`Waiting`),
and what is so of the service when one of them returns.

All of this needs that calls have numbers of their own, since a call that returns from the pool is
known by its number only. The invariant that matters is `Waiting.handle`: whenever the handle of the
collector is taken, the collector has ended or the call that took it is still there.
-/

namespace Conveyor.Moderation.Service

/-- A call of this kind comes to this stage. -/
def Stage.IsOf : Stage → Request → Prop
  | .atPool, request => request = .start ∨ request = .stopPool
  | .atPoolThenCollector, request => request = .stop
  | .atCollector, request => request = .shutdown ∨ request = .stop

/-- The numbers of the calls that were issued, in order. -/
abbrev callIds (as : List Action) : List Nat := extract Action.callId? as

/-- What is so of the calls that have not returned. -/
structure Waiting (as : List Action) (s : State) : Prop where
  /-- Each of them was issued, and is at a stage that its kind comes to. -/
  issued : ∀ p ∈ s.pending, ∃ request, .issue p.id request ∈ as ∧ p.stage.IsOf request
  /-- Each of them is there once. -/
  unique : ∀ p ∈ s.pending, ∀ q ∈ s.pending, p.id = q.id → p = q
  /-- When the handle is taken, the collector has ended or a call waits for it. -/
  handle : s.handle = false → s.collector = .ended ∨ ∃ p ∈ s.pending, p.stage = .atCollector

section Numbers

variable {as : List Action} {a : Action} {id : Nat} {request other : Request}

theorem mem_callIds (h : .issue id request ∈ as) : id ∈ callIds as :=
  List.mem_filterMap.2 ⟨_, h, rfl⟩

/-- A call with a number of its own was not issued before. -/
theorem not_issued_before (hids : (callIds (as ++ [.issue id request])).Nodup) (other : Request) :
    .issue id other ∉ as := by
  intro hmem
  have hids : (callIds as ++ [id]).Nodup := by simpa using hids
  exact (List.nodup_append.1 hids).2.2 id (mem_callIds hmem) id (by simp) rfl

/-- A number tells what was asked for. -/
theorem request_unique (hids : (callIds as).Nodup) (h : .issue id request ∈ as)
    (h' : .issue id other ∈ as) : request = other :=
  (Action.issue.inj (eq_of_nodup_extract hids h h' rfl rfl)).2

end Numbers

theorem State.mem_others {s : State} {id : Nat} {p : Pending} :
    p ∈ s.others id ↔ p ∈ s.pending ∧ p.id ≠ id := by
  simp [State.others]

/-- A call that joins the others is the one that is issued. -/
theorem Action.mem_joining {a : Action} {p : Pending} (h : p ∈ a.joining) :
    ∃ request, a = .issue p.id request ∧ p.stage.IsOf request ∧ a.joining = [p] := by
  unfold joining at h
  split at h
  case h_4 => simp at h
  all_goals
    obtain rfl := List.mem_singleton.1 h
    exact ⟨_, rfl, by simp [Stage.IsOf], rfl⟩

namespace Waiting

variable {policy : Policy} {s t : State} {a : Action} {as : List Action} {notes new : List Note}
  {id : Nat}

/-- More may be done. -/
theorem concat (h : Waiting as s) (a : Action) : Waiting (as ++ [a]) s where
  issued p hp := by
    obtain ⟨request, hissued, hstage⟩ := h.issued p hp
    exact ⟨request, List.mem_append_left _ hissued, hstage⟩
  unique := h.unique
  handle := h.handle

/-- A call joins the others. -/
theorem of_joining (h : Waiting as s) (hids : (callIds (as ++ [a])).Nodup) (pool : Pool.State) :
    Waiting (as ++ [a]) (s.withPool pool a) := by
  have hnew {p q : Pending} (hp : p ∈ s.pending) (hq : q ∈ a.joining) : p.id ≠ q.id := by
    intro hpq
    obtain ⟨request, hissued, -⟩ := h.issued p hp
    obtain ⟨other, rfl, -⟩ := Action.mem_joining hq
    exact not_issued_before hids request (hpq ▸ hissued)
  constructor
  · intro p hp
    rcases List.mem_append.1 hp with hold | hjoining
    · exact (h.concat a).issued p hold
    · obtain ⟨request, ha, hstage, -⟩ := Action.mem_joining hjoining
      exact ⟨request, by simp [← ha], hstage⟩
  · intro p hp q hq hpq
    rcases List.mem_append.1 hp with hold | hjoining <;>
      rcases List.mem_append.1 hq with hold' | hjoining'
    · exact h.unique p hold q hold' hpq
    · exact absurd hpq (hnew hold hjoining')
    · exact absurd hpq.symm (hnew hold' hjoining)
    · obtain ⟨-, -, -, hall⟩ := Action.mem_joining hjoining
      rw [hall, List.mem_singleton] at hjoining'
      exact hjoining'.symm
  · intro htaken
    rcases h.handle htaken with hended | ⟨p, hp, hstage⟩
    · exact .inl hended
    · exact .inr ⟨p, List.mem_append_left _ hp, hstage⟩

/-- A call that does not wait for the collector returns. -/
theorem of_others (h : Waiting as s)
    (hid : s.collector = .ended ∨ ∀ p ∈ s.pending, p.id = id → p.stage ≠ .atCollector) :
    Waiting as { s with pending := s.others id } where
  issued p hp := h.issued p (State.mem_others.1 hp).1
  unique p hp q hq := h.unique p (State.mem_others.1 hp).1 q (State.mem_others.1 hq).1
  handle htaken := by
    rcases h.handle htaken with hended | ⟨p, hp, hstage⟩
    · exact .inl hended
    · rcases hid with hended | hid
      · exact .inl hended
      · exact .inr ⟨p, State.mem_others.2 ⟨hp, fun hpid ↦ hid p hp hpid hstage⟩, hstage⟩

/-- A call that was issued takes the handle, and waits for the collector. -/
theorem of_turned (h : Waiting as s) {request : Request} (hissued : .issue id request ∈ as)
    (hrequest : request = .shutdown ∨ request = .stop) :
    Waiting as { s with handle := false, pending := s.others id ++ [⟨id, .atCollector⟩] } where
  issued p hp := by
    rcases List.mem_append.1 hp with hold | hturned
    · exact h.issued p (State.mem_others.1 hold).1
    · obtain rfl := List.mem_singleton.1 hturned
      exact ⟨request, hissued, hrequest⟩
  unique p hp q hq hpq := by
    rcases List.mem_append.1 hp with hold | hturned <;>
      rcases List.mem_append.1 hq with hold' | hturned'
    · exact h.unique p (State.mem_others.1 hold).1 q (State.mem_others.1 hold').1 hpq
    · obtain rfl := List.mem_singleton.1 hturned'
      exact absurd hpq (State.mem_others.1 hold).2
    · obtain rfl := List.mem_singleton.1 hturned
      exact absurd hpq.symm (State.mem_others.1 hold').2
    · rw [List.mem_singleton.1 hturned, List.mem_singleton.1 hturned']
  handle _ := .inr ⟨⟨id, .atCollector⟩, by simp, rfl⟩

/-- Nobody else has the number of a call that waits at some stage. -/
theorem stage_eq (h : Waiting as s) {stage : Stage} (hwaiting : ⟨id, stage⟩ ∈ s.pending)
    {p : Pending} (hp : p ∈ s.pending) (hpid : p.id = id) : p.stage = stage := by
  rw [h.unique p hp ⟨id, stage⟩ hwaiting hpid]

/-- Every action keeps account of the calls that have not returned. -/
theorem of_change (h : Waiting as s) (hids : (callIds (as ++ [a])).Nodup)
    (hchange : Change policy s a t new) : Waiting (as ++ [a]) t := by
  cases hchange with
  | work onPool acts => exact h.of_joining hids _
  | @returnFromPool a b pool _ _ onPool acts returned waiting =>
    have hjoined := h.of_joining hids pool
    refine hjoined.of_others (.inr fun p hp hpid ↦ ?_)
    simp [hjoined.stage_eq waiting hp hpid]
  | @turnFromPool a b pool _ _ onPool acts returned waiting untaken =>
    have hjoined := h.of_joining hids pool
    obtain ⟨request, hissued, hrequest⟩ := hjoined.issued _ waiting
    exact hjoined.of_turned hissued (.inr hrequest)
  | @skipFromPool a b pool _ _ onPool acts returned waiting taken =>
    have hjoined := h.of_joining hids pool
    refine hjoined.of_others (.inr fun p hp hpid ↦ ?_)
    simp [hjoined.stage_eq waiting hp hpid]
  | turn untaken => exact (h.concat _).of_turned (by simp) (.inl rfl)
  | skip taken =>
    refine (h.concat _).of_others (.inr fun p hp hpid ↦ ?_)
    obtain ⟨request, hissued, -⟩ := h.issued p hp
    exact absurd (hpid ▸ hissued) (not_issued_before hids request)
  | pop | popNothing => exact { h.concat _ with }
  | collect ready =>
    exact { h.concat _ with handle := fun htaken ↦ .inr (by simpa [ready] using h.handle htaken) }
  | store carrying =>
    exact {
      h.concat _ with handle := fun htaken ↦ .inr (by simpa [carrying] using h.handle htaken) }
  | finish => exact { h.concat _ with handle := fun _ ↦ .inl rfl }
  | join ended => exact (h.concat _).of_others (.inl ended)

/-- The account of the calls that have not returned after a run. -/
theorem of_runs (hs : s.pool.Coupled) (hreader : s.pool.reader = .taken) (hnew : s.pending = [])
    (hhandle : s.handle = true) (h : Runs (State.act · policy) s as t notes)
    (hids : (callIds as).Nodup) : Waiting as t := by
  refine State.runs_induction hs hreader h
    (motive := fun as t _ ↦ (callIds as).Nodup → Waiting as t) ?_ ?_ hids
  · intro _
    exact { issued := by simp [hnew], unique := by simp [hnew], handle := by simp [hhandle] }
  · intro as t notes a u new ht hchange ih hids
    have hbefore : (callIds as).Nodup :=
      hids.sublist ((List.sublist_append_left as [a]).filterMap _)
    exact (ih hbefore).of_change hids hchange

/-- When a call of `shutdown` or `stop` returns, the collector has ended or the handle is taken. -/
theorem handle_of_returned (h : Waiting as s) (hids : (callIds (as ++ [a])).Nodup)
    (hchange : Change policy s a t new) {request : Request}
    (hissued : .issue id request ∈ as ++ [a])
    (hrequest : request = .shutdown ∨ request = .stop) (hreturned : .returned id ∈ new) :
    t.collector = .ended ∨ t.handle = false := by
  cases hchange with
  | @returnFromPool a b pool _ k onPool acts returned waiting =>
    obtain rfl : id = k := by simpa using hreturned
    obtain ⟨other, hother, hstage⟩ := (h.of_joining hids pool).issued _ waiting
    obtain rfl := request_unique hids hissued hother
    rcases hrequest with rfl | rfl <;> simp [Stage.IsOf] at hstage
  | skipFromPool onPool acts returned waiting taken => exact .inr taken
  | skip taken => exact .inr taken
  | join ended => exact .inl ended
  | _ => simp at hreturned

/-- When a call that waits for the collector returns, the collector has ended. -/
theorem ended_of_returned (h : Waiting as s) (hids : (callIds (as ++ [a])).Nodup)
    (hchange : Change policy s a t new) (hwaits : ⟨id, .atCollector⟩ ∈ s.pending)
    (hreturned : .returned id ∈ new) : t.collector = .ended := by
  cases hchange with
  | @returnFromPool a b pool _ k onPool acts returned waiting
  | @skipFromPool a b pool _ k onPool acts returned waiting =>
    obtain rfl : id = k := by simpa using hreturned
    have hstage := (h.of_joining hids pool).stage_eq waiting (List.mem_append_left _ hwaits) rfl
    simp at hstage
  | @skip k taken =>
    obtain rfl : id = k := by simpa using hreturned
    obtain ⟨request, hissued, -⟩ := h.issued _ hwaits
    exact absurd hissued (not_issued_before hids request)
  | join ended => exact ended
  | _ => simp at hreturned

/-- When a call of `stop` returns, the pool is stopped and closed, or the collector has ended. -/
theorem stopped_of_returned (hs : s.pool.Coupled) (h : Waiting as s)
    (hids : (callIds (as ++ [a])).Nodup)
    (hcalls : ∀ call ∈ s.pool.turns.calls, call.id = id → call.request = .stop)
    (hchange : Change policy s a t new) (hissued : .issue id .stop ∈ as ++ [a])
    (hreturned : .returned id ∈ new) :
    t.pool.lifecycle = .stopped ∧ t.pool.sends = false ∨ t.collector = .ended := by
  cases hchange with
  | @returnFromPool a b pool _ k onPool acts returned waiting =>
    obtain rfl : id = k := by simpa using hreturned
    obtain ⟨other, hother, hstage⟩ := (h.of_joining hids pool).issued _ waiting
    obtain rfl := request_unique hids hissued hother
    simp [Stage.IsOf] at hstage
  | @skipFromPool a b pool _ k onPool acts returned waiting taken =>
    obtain rfl : id = k := by simpa using hreturned
    obtain ⟨call, hcall, hwhence, hstopped⟩ := (hs.change acts).of_returned hs returned
    refine .inl (hstopped ?_)
    rcases hwhence with rfl | hwaiting
    · obtain ⟨request, rfl, hrequest⟩ :=
        Action.issue_of_mirrored (Action.mirrored?_of_onPool onPool)
      exact hrequest (request_unique hids (by simp [← hcall]) hissued)
    · exact hcalls call hwaiting hcall
  | @skip k taken =>
    obtain rfl : id = k := by simpa using hreturned
    have hrequest : Request.shutdown = .stop := request_unique hids (by simp) hissued
    simp at hrequest
  | join ended => exact .inr ended
  | _ => simp at hreturned

end Waiting

end Conveyor.Moderation.Service
