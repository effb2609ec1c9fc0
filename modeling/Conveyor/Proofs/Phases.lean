import Conveyor.Lifecycle
import Conveyor.Proofs.Run
import Conveyor.Proofs.Turns

/-!
# The phases of a service

A call of `start` or `stop` that gets to work moves the lifecycle of its service
(`Lifecycle.after`), and calls that get to work one after the other move it further
(`Lifecycle.afterAll`). Since it only moves forward, little of such a sequence matters: the service is
stopped if and only if one of the calls stops it, and it is as it was created if and only if there was
no call.

The second part is about the machines whose calls take turns. A call moves the lifecycle when it gets
to work, which may be later than it was issued; but where it makes no difference when it does, the
calls that were issued tell the lifecycle, whatever else happened (`Runs.lifecycle_eq`). And no call is
forgotten: it is at the lock or in line until it returns (`Runs.mem_calls_or_returned`).
-/

namespace Conveyor

namespace Lifecycle

/-- The state after a call that asks for this. -/
def after (l : Lifecycle) : Request → Lifecycle
  | .start => l.tryStart.2
  | .stop => l.tryStop.2

/-- The state after calls that ask for these, one after the other. -/
def afterAll (l : Lifecycle) (rs : List Request) : Lifecycle := rs.foldl after l

variable {l : Lifecycle} {r : Request} {rs : List Request}

@[simp] theorem after_stop (l : Lifecycle) : l.after .stop = .stopped := by
  cases l <;> rfl

@[simp] theorem stopped_after (r : Request) : stopped.after r = .stopped := by
  cases r <;> rfl

theorem after_start_of_ne_created (h : l ≠ .created) : l.after .start = l := by
  cases l with
  | created => exact absurd rfl h
  | _ => rfl

theorem after_eq_stopped_iff : l.after r = .stopped ↔ l = .stopped ∨ r = .stop := by
  cases l <;> cases r <;> simp [after, tryStart, tryStop]

theorem after_ne_created (l : Lifecycle) (r : Request) : l.after r ≠ .created := by
  cases l <;> cases r <;> simp [after, tryStart, tryStop]

theorem afterAll_append (l : Lifecycle) (rs later : List Request) :
    l.afterAll (rs ++ later) = (l.afterAll rs).afterAll later :=
  List.foldl_append

theorem afterAll_cons (l : Lifecycle) (r : Request) (rs : List Request) :
    l.afterAll (r :: rs) = (l.after r).afterAll rs := rfl

theorem afterAll_eq_stopped_iff : l.afterAll rs = .stopped ↔ l = .stopped ∨ .stop ∈ rs := by
  induction rs generalizing l with
  | nil => simp [afterAll]
  | cons r rs ih =>
    rw [afterAll_cons, ih, after_eq_stopped_iff, List.mem_cons, or_assoc, eq_comm (a := r)]

theorem afterAll_eq_created_iff : l.afterAll rs = .created ↔ l = .created ∧ rs = [] := by
  induction rs generalizing l with
  | nil => simp [afterAll]
  | cons r rs ih =>
    rw [afterAll_cons, ih]
    simp [after_ne_created]

end Lifecycle

/-! ### Machines whose calls take turns -/

section Machines

variable {S A N ω : Type} {act : S → A → Option (S × List N)} {call? : A → Option Call}
  {issue : Call → A} {s t : S} {as : List A} {notes : List N} {call : Call}

/-- What the calls that were issued ask for, in order. -/
def requests (call? : A → Option Call) (as : List A) : List Request :=
  (extract call? as).map Call.request

@[simp] theorem requests_nil : requests call? [] = [] := rfl

theorem requests_append (as bs : List A) :
    requests call? (as ++ bs) = requests call? as ++ requests call? bs := by
  rw [requests, extract_append, List.map_append]
  rfl

theorem requests_singleton (a : A) :
    requests call? [a] = (call? a).toList.map Call.request := by
  rw [requests, extract_cons, extract_nil, List.append_nil]

theorem mem_requests_iff (hissue : ∀ {a c}, call? a = some c ↔ a = issue c) {r : Request} :
    r ∈ requests call? as ↔ ∃ id, issue ⟨id, r⟩ ∈ as := by
  rw [requests, List.mem_map]
  constructor
  · rintro ⟨⟨id, _⟩, hcall, rfl⟩
    exact ⟨id, (mem_extract_iff hissue).1 hcall⟩
  · rintro ⟨id, h⟩
    exact ⟨⟨id, r⟩, (mem_extract_iff hissue).2 h, rfl⟩

/-- If each action moves the lifecycle as the call does that is issued in it, the lifecycle after a
run is what the calls make of it in the order in which they were issued. -/
theorem Runs.lifecycle_eq (lifecycle : S → Lifecycle)
    (hact : ∀ {as t notes a u new}, Runs act s as t notes → act t a = some (u, new) →
      lifecycle u = (lifecycle t).afterAll (requests call? [a]))
    (h : Runs act s as t notes) : lifecycle t = (lifecycle s).afterAll (requests call? as) := by
  induction h with
  | refl => rfl
  | tail run act_eq ih => rw [hact run act_eq, ih, requests_append, Lifecycle.afterAll_append]

/-- A call that was issued has not returned yet, or its return is in the history. -/
theorem Runs.mem_calls_or_returned (turns : S → Turns ω) (stopped : S → Prop)
    (returned : Nat → N)
    (hact : ∀ {as t notes a u new}, Runs act s as t notes → act t a = some (u, new) →
      (turns t).Goes (returned · ∈ new) (stopped u) (call? a) (turns u))
    (h : Runs act s as t notes) (hissued : call ∈ extract call? as) :
    call ∈ (turns t).calls ∨ returned call.id ∈ notes := by
  induction h with
  | refl => exact absurd hissued List.not_mem_nil
  | @tail as u notes a t new run act_eq ih =>
    have hstays (hcall : call? a = some call ∨ call ∈ (turns u).calls) :
        call ∈ (turns t).calls ∨ returned call.id ∈ notes ++ new :=
      ((hact run act_eq).stays hcall).imp_right fun h ↦ List.mem_append_right _ h.1
    rw [extract_append, extract_cons, extract_nil, List.append_nil, List.mem_append,
      Option.mem_toList] at hissued
    rcases hissued with hbefore | hnow
    · rcases ih hbefore with hwaits | hreturned
      · exact hstays (.inr hwaits)
      · exact .inr (List.mem_append_left _ hreturned)
    · exact hstays (.inl hnow)

end Machines

end Conveyor
