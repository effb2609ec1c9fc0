/-!
# Calls that take turns

`start` and `stop` of a service take turns through a lock: first come, first served, and a call that
has to wait for something inside keeps the lock until it returns. `Turns ω` is that lock with the
calls around it, where `ω` is what a call inside waits for.

A call that comes to a free lock goes on at once. When a call returns, the lock goes straight to the
call that has waited longest, which then goes on in a step of its own.
-/

namespace Conveyor

/-- What a call asks of a service. -/
inductive Request where
  /-- Begin to work. -/
  | start
  /-- Take no more work, and finish what was taken. -/
  | stop
  deriving DecidableEq, Repr

/-- A call that has been issued, with a number to tell it from others. -/
structure Call where
  /-- The number of the call. -/
  id : Nat
  /-- What is asked for. -/
  request : Request
  deriving DecidableEq, Repr

/-- The lock that calls take turns through. -/
inductive Lock (ω : Type) where
  /-- No call holds the lock. -/
  | free
  /-- A call has got the lock and comes next. -/
  | granted (call : Call)
  /-- A call holds the lock and waits. -/
  | held (call : Call) (on : ω)
  deriving DecidableEq, Repr

/-- The lock and the calls that wait for it. -/
structure Turns (ω : Type) where
  /-- The lock. -/
  lock : Lock ω := .free
  /-- The calls that wait, in the order in which they came. -/
  waiting : List Call := []
  deriving DecidableEq, Repr

namespace Turns

variable {ω : Type}

/-- A call joins the line. -/
def queue (t : Turns ω) (call : Call) : Turns ω :=
  { t with waiting := t.waiting ++ [call] }

/-- The call that holds the lock waits inside. -/
def hold (t : Turns ω) (call : Call) (on : ω) : Turns ω :=
  { t with lock := .held call on }

/-- The lock is given up, and goes to the call that has waited longest. -/
def release (t : Turns ω) : Turns ω :=
  match t.waiting with
  | [] => { t with lock := .free }
  | c :: cs => { lock := .granted c, waiting := cs }

/-- The calls that have not returned, the one at the lock first. -/
def calls (t : Turns ω) : List Call :=
  match t.lock with
  | .free => t.waiting
  | .granted c => c :: t.waiting
  | .held c _ => c :: t.waiting

/-- The call that has got the lock and has not begun. -/
def granted? (t : Turns ω) : Option Call :=
  match t.lock with
  | .granted c => some c
  | _ => none

/-- The call that comes to the lock, if the lock is free. -/
def entering? (t : Turns ω) (call : Call) : Option Call :=
  match t.lock with
  | .free => some call
  | _ => none

@[simp] theorem calls_release (t : Turns ω) : t.release.calls = t.waiting := by
  rcases t with ⟨lock, - | ⟨c, cs⟩⟩ <;> rfl

@[simp] theorem calls_hold (t : Turns ω) (call : Call) (on : ω) :
    (t.hold call on).calls = call :: t.waiting := rfl

@[simp] theorem lock_hold (t : Turns ω) (call : Call) (on : ω) :
    (t.hold call on).lock = .held call on := rfl

/-- A lock that is given up is not held. -/
theorem lock_release_ne_held (t : Turns ω) (call : Call) (on : ω) :
    t.release.lock ≠ .held call on := by
  rcases t with ⟨lock, - | ⟨c, cs⟩⟩ <;> simp [release]

theorem mem_calls_of_mem_waiting {t : Turns ω} {c : Call} (h : c ∈ t.waiting) : c ∈ t.calls := by
  unfold calls
  split
  · exact h
  · exact List.mem_cons_of_mem _ h
  · exact List.mem_cons_of_mem _ h

theorem mem_calls_of_held {t : Turns ω} {c : Call} {on : ω} (h : t.lock = .held c on) :
    c ∈ t.calls := by
  simp [calls, h]

/-- A bound on the number of steps in which calls take turns, where a call that waits inside takes
`inside` steps at most once it has the lock, and the one that holds it now still takes `left`. -/
def weight (t : Turns ω) (inside : Nat) (left : ω → Nat) : Nat :=
  t.waiting.length * (inside + 2) +
    match t.lock with
    | .free => 0
    | .granted _ => inside + 1
    | .held _ on => left on

end Turns

end Conveyor
