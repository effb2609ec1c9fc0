import Conveyor.Proofs.Pool.Coupling
import Conveyor.Proofs.Turns

/-!
# Calls to a pool

What a change does at the lock (`Change.turns`), which call returns in it, and what is so of the
pool then. A call of `stop` returns only when
the pool is stopped, nobody in its crew is alive and its own end of the channel is given up,
whichever of several calls it is: a call that comes later begins only when the lock is given to it
(`State.Coupled.draining`).
-/

namespace Conveyor.Moderation.Pool

open Time

/-- The call that is issued. -/
@[simp] def Action.call? : Action → Option Call
  | .issue call => some call
  | _ => none

/-- The number of the call that is issued. -/
@[simp] def Action.callId? : Action → Option Nat
  | .issue call => some call.id
  | _ => none

/-- The numbers of the calls that were issued, in order. -/
abbrev callIds (as : List Action) : List Nat := extract Action.callId? as

theorem Action.call?_eq_some_iff {a : Action} {call : Call} :
    a.call? = some call ↔ a = .issue call := by
  cases a <;> simp

variable {policy : Policy} {s t : State} {a : Action} {x : Step} {now : Timestamp} {call c : Call}
  {as : List Action} {notes new : List Note}

/-! ### Calls that take turns -/

/-- The call that gets to work in a step was handed the lock. -/
theorem State.lock_of_beginning_step (h : s.beginning? (.step x now) = some call) :
    s.turns.lock = .granted call := by
  cases x <;> simp [beginning?] at h
  exact Turns.lock_of_granted h

/-- The call that gets to work when it is issued finds the lock free. -/
theorem State.lock_of_beginning_issue (h : s.beginning? (.issue call) = some c) :
    s.turns.lock = .free ∧ c = call :=
  Turns.lock_of_entering h

/-- It is the turn of the call that gets to work. -/
theorem State.serves_of_beginning (hbegun : s.beginning? a = some call) :
    s.turns.Serves a.call? call := by
  cases a with
  | issue other =>
    obtain ⟨hlock, rfl⟩ := State.lock_of_beginning_issue hbegun
    exact .enters hlock
  | step x now => exact .granted (State.lock_of_beginning_step hbegun)
  | _ => simp [State.beginning?] at hbegun

/-- A call that gets to work is issued in the action or has waited for the lock. -/
theorem State.mem_calls_of_beginning (hbegun : s.beginning? a = some call) :
    a = .issue call ∨ call ∈ s.turns.calls :=
  (State.serves_of_beginning hbegun).mem_calls.imp_left Action.call?_eq_some_iff.1

/-- What a change does at the lock. A call of `stop` that returns has stopped the pool. -/
theorem Change.turns (hs : s.Coupled) (h : Change policy s a t new) :
    s.turns.Goes (.returned · ∈ new) (t.lifecycle = .stopped) a.call? t.turns := by
  cases h with
  | leaveResults nothing =>
    have hcall : a.call? = none := by rcases nothing with ⟨rfl, -⟩ | ⟨rfl, -⟩ | ⟨rfl, -⟩ <;> rfl
    rw [hcall]
    exact .idle (by simp)
  | wait busy => exact .joins busy (by simp)
  | start begun request =>
    exact .returns (State.serves_of_beginning begun) (by simp) (by simp [request])
  | passBy begun nothing =>
    exact .returns (State.serves_of_beginning begun) (by simp) fun hstop ↦ by
      simpa [hstop] using nothing
  | close begun => exact .waits (State.serves_of_beginning begun) (by simp)
  | discard begun => exact .returns (State.serves_of_beginning begun) (by simp) fun _ ↦ rfl
  | passWorker held | reportDeath held => exact .waits (.inside held) (by simp)
  | @finishCall other i _ held =>
    exact .returns (.inside held) (by simp) fun _ ↦ (hs.held other i held).2.1
  | _ => exact .idle (by simp)

/-! ### Calls that return -/

/-- The calls that have not returned were issued. -/
theorem issue_mem_of_mem_calls (hs : s.Coupled) (hfree : s.turns.calls = [])
    (h : Runs (State.act · policy) s as t notes) : ∀ call ∈ t.turns.calls, .issue call ∈ as := by
  refine hs.runs_induction h
    (motive := fun as t _ ↦ ∀ call ∈ t.turns.calls, .issue call ∈ as) (by simp [hfree]) ?_
  intro as t notes a u new ht hchange ih call hcall
  rcases (hchange.turns ht).mem_calls hcall with hissued | hold
  · simp [Action.call?_eq_some_iff.1 hissued]
  · exact List.mem_append_left _ (ih call hold)

/-- At most one call returns in a change, and nothing happens after it. -/
theorem Change.returned_last (h : Change policy s a t new) :
    (∀ id, .returned id ∉ new) ∨
      ∃ id rest, new = rest ++ [.returned id] ∧ ∀ other, .returned other ∉ rest := by
  cases h with
  | @start _ call => exact .inr ⟨call.id, [.started], rfl, by simp⟩
  | @passBy _ call => exact .inr ⟨call.id, [], rfl, by simp⟩
  | @discard _ call => exact .inr ⟨call.id, [.stoppedEarly s.queue], rfl, by simp⟩
  | @finishCall call => exact .inr ⟨call.id, [], rfl, by simp⟩
  | _ => exact .inl (by simp)

/-- At most one call returns in a change. -/
theorem Change.returned_unique (h : Change policy s a t new) {id other : Nat}
    (hid : .returned id ∈ new) (hother : .returned other ∈ new) : id = other := by
  rcases h.returned_last with hnone | ⟨last, rest, rfl, hrest⟩
  · exact absurd hid (hnone id)
  · simp_all

/-- The call that returns in a change was issued in it or before, and if it is a call of `stop`, the
pool is stopped and nobody has a sending end of the channel any more. -/
theorem Change.of_returned (hs : s.Coupled) (h : Change policy s a t new) {id : Nat}
    (hreturned : .returned id ∈ new) :
    ∃ call : Call, call.id = id ∧ (a = .issue call ∨ call ∈ s.turns.calls) ∧
      (call.request = .stop → t.lifecycle = .stopped ∧ t.sends = false) := by
  have ht : t.Coupled := hs.of_change h
  have hsends (houtlet : t.outlet = false) : t.lifecycle = .stopped ∧ t.sends = false := by
    obtain ⟨hstopped, hunmanned⟩ := ht.outlet houtlet
    exact ⟨hstopped, by simp [State.sends, houtlet, hunmanned]⟩
  cases h with
  | @start a call begun request =>
    obtain rfl : id = call.id := by simpa using hreturned
    exact ⟨call, rfl, State.mem_calls_of_beginning begun, by simp [request]⟩
  | @passBy a call begun nothing =>
    obtain rfl : id = call.id := by simpa using hreturned
    refine ⟨call, rfl, State.mem_calls_of_beginning begun, fun hstop ↦ ?_⟩
    have hstopped : s.lifecycle = .stopped := by simpa [hstop] using nothing
    -- If the lock were held, this call had not begun.
    rcases hs.draining hstopped with ⟨other, i, hheld⟩ | houtlet
    · exact absurd hheld (State.not_held_of_beginning begun other i)
    · exact hsends houtlet
  | @discard a call begun =>
    obtain rfl : id = call.id := by simpa using hreturned
    exact ⟨call, rfl, State.mem_calls_of_beginning begun, fun _ ↦ hsends rfl⟩
  | @finishCall call i now held =>
    obtain rfl : id = call.id := by simpa using hreturned
    exact ⟨call, rfl, .inr (Turns.mem_calls_of_held held), fun _ ↦ hsends rfl⟩
  | _ => simp at hreturned

/-! ### A closed channel -/

/-- From `s` to `t` the channel was closed: the crew did nothing, and verdicts only left. -/
structure OnlyRead (s t : State) (notes : List Note) : Prop where
  /-- The channel is closed still. -/
  closed : t.sends = false
  /-- The crew is the same. -/
  crew : t.crew = s.crew
  /-- No job was taken. -/
  pulled : pulled notes = []
  /-- No job was judged, and no verdict offered. -/
  outcomes : outcomes notes = []
  /-- The verdicts that left the channel are the first that were in there. -/
  channel : s.channel = received notes ++ thrown notes ++ t.channel
  /-- Verdicts are thrown away all at once, with the receiving end. -/
  thrown : thrown notes = [] ∨ t.reader = .gone ∧ t.channel = []
  /-- A receiving end that was thrown away does not come back. -/
  gone : s.reader = .gone → t.reader = .gone

namespace OnlyRead

variable {u : State} {later : List Note}

/-- An empty channel stays empty. -/
theorem channel_eq_nil (h : OnlyRead s t notes) (hempty : s.channel = []) : t.channel = [] := by
  have hchannel := h.channel
  rw [hempty, List.nil_eq, List.append_eq_nil_iff] at hchannel
  exact hchannel.2

/-- Nothing happened. -/
theorem refl (hclosed : s.sends = false) : OnlyRead s s [] :=
  ⟨hclosed, rfl, rfl, rfl, rfl, .inl rfl, id⟩

/-- One thing after another. -/
theorem trans (h : OnlyRead s t notes) (h' : OnlyRead t u later) :
    OnlyRead s u (notes ++ later) where
  closed := h'.closed
  crew := h'.crew.trans h.crew
  pulled := by simpa [h'.pulled] using h.pulled
  outcomes := by simpa [h'.outcomes] using h.outcomes
  channel := by
    have hlater := h'.channel
    rcases h.thrown with hkept | ⟨-, hempty⟩
    · simp [h.channel, hlater, hkept]
    · rw [hempty, List.nil_eq, List.append_eq_nil_iff, List.append_eq_nil_iff] at hlater
      obtain ⟨⟨hreceived, hthrown⟩, hempty'⟩ := hlater
      simp [h.channel, hempty, hreceived, hthrown, hempty']
  thrown := by
    rcases h.thrown with hkept | ⟨hgone, hempty⟩
    · rcases h'.thrown with hkept' | hlost
      · exact .inl (by simp [hkept, hkept'])
      · exact .inr hlost
    · exact .inr ⟨h'.gone hgone, h'.channel_eq_nil hempty⟩
  gone hgone := h'.gone (h.gone hgone)

end OnlyRead

/-- The channel is closed when neither the pool nor a worker has a sending end of it. -/
theorem State.ends_of_closed (hclosed : s.sends = false) :
    s.outlet = false ∧ s.isManned = false := by
  simpa [State.sends] using hclosed

/-- Nobody in the crew of a pool whose channel is closed is alive. -/
theorem State.not_alive_of_closed (hclosed : s.sends = false) {w : Worker} (hw : w ∈ s.crew) :
    w.isAlive = false := by
  have hunmanned := (State.ends_of_closed hclosed).2
  simp only [State.isManned, List.any_eq_false] at hunmanned
  simpa using hunmanned w hw

/-- A channel that is closed stays closed, and is only read. -/
theorem Change.of_closed (hs : s.Coupled) (h : Change policy s a t new)
    (hclosed : s.sends = false) : OnlyRead s t new := by
  obtain ⟨houtlet, hunmanned⟩ := State.ends_of_closed hclosed
  have hstopped : s.lifecycle = .stopped := (hs.outlet houtlet).1
  have hnobody {i : Nat} {w : Worker} (hw : s.crew[i]? = some w) : w.isAlive = false :=
    State.not_alive_of_closed hclosed (List.mem_of_getElem? hw)
  cases h with
  | start _ _ created => simp [hstopped] at created
  | close _ _ running => simp [hstopped] at running
  | discard _ _ created => simp [hstopped] at created
  | arrive arriving => exact absurd (hnobody arriving) (by simp [Worker.isAlive])
  | pull first => exact absurd (hnobody (hs.inLine_of_first first)) (by simp [Worker.isAlive])
  | leave first => exact absurd (hnobody (hs.inLine_of_first first)) (by simp [Worker.isAlive])
  | offer busy | drop busy | die busy | dieLast busy =>
    exact absurd (hnobody busy) (by simp [Worker.isAlive])
  | receive taken next => exact ⟨hclosed, rfl, by simp, by simp, by simp [next], .inl (by simp), id⟩
  | throwAway =>
    exact ⟨hclosed, rfl, by simp, by simp, by simp, .inr ⟨rfl, rfl⟩, fun _ ↦ rfl⟩
  | takeResults untaken =>
    exact ⟨hclosed, rfl, by simp, by simp, by simp, .inl (by simp), by simp [untaken]⟩
  | finishCall =>
    refine ⟨?_, rfl, by simp, by simp, by simp, .inl (by simp), id⟩
    simpa [State.sends, State.isManned] using hunmanned
  | _ => exact ⟨hclosed, rfl, by simp, by simp, by simp, .inl (by simp), id⟩

/-- What is so after every run of a pool whose channel is closed. -/
theorem State.Coupled.onlyRead_of_runs (hs : s.Coupled)
    (h : Runs (State.act · policy) s as t notes) (hclosed : s.sends = false) :
    OnlyRead s t notes := by
  refine hs.runs_induction h (motive := fun _ t notes ↦ OnlyRead s t notes) (.refl hclosed) ?_
  intro as t notes a u new ht hchange ih
  exact ih.trans (hchange.of_closed ht ih.closed)

end Conveyor.Moderation.Pool
