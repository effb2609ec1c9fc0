import Conveyor.Turns

/-!
# How calls take turns

What can happen at the lock (`Turns.Goes`) is the same for every service whose calls take turns: a
call joins the line, or the call that gets to work or waits inside goes on waiting there or returns.
A call stays until it returns (`Turns.Goes.stays`), and nobody stands in line at a free lock
(`Turns.InOrder`).

The second part says what the bound `Turns.weight` counts after each of these.
-/

namespace Conveyor.Turns

variable {ω : Type} {t : Turns ω} {call c : Call} {on : ω}

@[simp] theorem calls_queue (t : Turns ω) (call : Call) :
    (t.queue call).calls = t.calls ++ [call] := by
  rcases t with ⟨lock, waiting⟩
  cases lock <;> rfl

theorem lock_of_entering (h : t.entering? call = some c) : t.lock = .free ∧ c = call := by
  unfold entering? at h
  split at h <;> simp_all

theorem lock_of_granted (h : t.granted? = some c) : t.lock = .granted c := by
  unfold granted? at h
  split at h <;> simp_all

/-! ### What can happen -/

/-- The call whose turn it is, when this call is issued or none is. -/
inductive Serves (t : Turns ω) : (issued : Option Call) → Call → Prop where
  /-- A call comes to the free lock. -/
  | enters {call : Call} (free : t.lock = .free) : Serves t (some call) call
  /-- A call was handed the lock. -/
  | granted {call : Call} (granted : t.lock = .granted call) : Serves t none call
  /-- A call waits inside. -/
  | inside {call : Call} {on : ω} (held : t.lock = .held call on) : Serves t none call

/-- What happens at the lock in an action in which a call is issued or none is. Which calls return in
it, `noted` says by their numbers, and a call of `stop` returns only when `stopped` is so. -/
inductive Goes (t : Turns ω) (noted : Nat → Prop) (stopped : Prop) :
    (issued : Option Call) → Turns ω → Prop where
  /-- Nothing happens at the lock. -/
  | idle (nobody : ∀ id, ¬noted id) : Goes t noted stopped none t
  /-- A call joins the line. -/
  | joins {call : Call} (busy : t.lock ≠ .free) (nobody : ∀ id, ¬noted id) :
      Goes t noted stopped (some call) (t.queue call)
  /-- The call whose turn it is waits inside. -/
  | waits {issued : Option Call} {call : Call} {on : ω} (serves : t.Serves issued call)
      (nobody : ∀ id, ¬noted id) : Goes t noted stopped issued (t.hold call on)
  /-- The call whose turn it is returns, and no other. -/
  | returns {issued : Option Call} {call : Call} (serves : t.Serves issued call)
      (only : ∀ id, noted id ↔ id = call.id) (stops : call.request = .stop → stopped) :
      Goes t noted stopped issued t.release

section Goes

variable {issued : Option Call} {u : Turns ω} {noted : Nat → Prop} {stopped : Prop}

/-- The calls there are: the one whose turn it is and those that wait. -/
theorem Serves.mem (h : t.Serves issued call) (hc : issued = some c ∨ c ∈ t.calls) :
    c = call ∨ c ∈ t.waiting := by
  cases h with
  | enters free => simpa [calls, free, eq_comm] using hc
  | granted granted => simpa [calls, granted] using hc
  | inside held => simpa [calls, held] using hc

/-- The call whose turn it is was issued, or has not returned before. -/
theorem Serves.mem_calls (h : t.Serves issued call) : issued = some call ∨ call ∈ t.calls := by
  cases h with
  | enters => exact .inl rfl
  | granted granted => exact .inr (by simp [calls, granted])
  | inside held => exact .inr (mem_calls_of_held held)

/-- A call that is issued, or has not returned before, stays or returns. -/
theorem Goes.stays (h : t.Goes noted stopped issued u) (hc : issued = some c ∨ c ∈ t.calls) :
    c ∈ u.calls ∨ noted c.id ∧ (c.request = .stop → stopped) := by
  cases h with
  | idle => exact .inl (hc.resolve_left (by simp))
  | joins => exact .inl (by simpa [eq_comm, or_comm] using hc)
  | waits serves =>
    rw [calls_hold, List.mem_cons]
    exact .inl (serves.mem hc)
  | returns serves only stops =>
    rw [calls_release]
    rcases serves.mem hc with rfl | hwaits
    · exact .inr ⟨(only c.id).2 rfl, stops⟩
    · exact .inl hwaits

/-- A call that has not returned was issued, or had not returned before. -/
theorem Goes.mem_calls (h : t.Goes noted stopped issued u) (hc : c ∈ u.calls) :
    issued = some c ∨ c ∈ t.calls := by
  cases h with
  | idle => exact .inr hc
  | joins => simpa [eq_comm, or_comm] using hc
  | waits serves =>
    rw [calls_hold, List.mem_cons] at hc
    rcases hc with rfl | hwaits
    · exact serves.mem_calls
    · exact .inr (mem_calls_of_mem_waiting hwaits)
  | returns =>
    rw [calls_release] at hc
    exact .inr (mem_calls_of_mem_waiting hc)

/-- Only the call that is issued returns at once. -/
theorem Goes.eq_of_noted {id : Nat} (h : t.Goes noted stopped (some call) u) (hid : noted id) :
    id = call.id := by
  cases h with
  | joins _ nobody | waits _ nobody => exact absurd hid (nobody id)
  | returns serves only =>
    cases serves with
    | enters => exact (only id).1 hid

/-- Calls wait only while another call has the lock. -/
def InOrder (t : Turns ω) : Prop := t.lock = .free → t.waiting = []

theorem InOrder.calls_eq_nil (h : t.InOrder) (hfree : t.lock = .free) : t.calls = [] := by
  simpa [calls, hfree] using h hfree

theorem inOrder_release (t : Turns ω) : t.release.InOrder := by
  rcases t with ⟨lock, - | ⟨c, cs⟩⟩
  · exact fun _ ↦ rfl
  · intro hfree
    simp [release] at hfree

/-- Nothing that happens leaves calls in line at a free lock. -/
theorem Goes.inOrder (h : t.Goes noted stopped issued u) (ht : t.InOrder) : u.InOrder := by
  cases h with
  | idle => exact ht
  | joins busy => exact fun hfree ↦ absurd hfree busy
  | waits => exact fun hfree ↦ by simp at hfree
  | returns => exact inOrder_release t

/-- The lock that the last call gives up is free. -/
theorem lock_release_of_waiting_nil (h : t.waiting = []) : t.release.lock = .free := by
  simp [release, h]

end Goes

/-! ### The bound -/

section Weight

variable (inside : Nat) (left : ω → Nat)

theorem weight_of_free (h : t.lock = .free) :
    t.weight inside left = t.waiting.length * (inside + 2) := by
  simp [weight, h]

theorem weight_of_granted (h : t.lock = .granted c) :
    t.weight inside left = t.waiting.length * (inside + 2) + (inside + 1) := by
  simp [weight, h]

theorem weight_of_held (h : t.lock = .held c on) :
    t.weight inside left = t.waiting.length * (inside + 2) + left on := by
  simp [weight, h]

@[simp] theorem weight_hold (t : Turns ω) (call : Call) (on : ω) :
    (t.hold call on).weight inside left = t.waiting.length * (inside + 2) + left on := rfl

@[simp] theorem weight_queue (t : Turns ω) (call : Call) :
    (t.queue call).weight inside left = t.weight inside left + (inside + 2) := by
  simp [weight, queue, Nat.add_one_mul]
  omega

/-- The call that is given the lock counts less than while it waited. -/
theorem weight_release_le (t : Turns ω) :
    t.release.weight inside left ≤ t.waiting.length * (inside + 2) := by
  rcases t with ⟨lock, - | ⟨c, cs⟩⟩
  · simp [release, weight]
  · simp [release, weight, Nat.add_one_mul]

end Weight

end Conveyor.Turns
