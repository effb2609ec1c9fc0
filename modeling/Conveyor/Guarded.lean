/-!
# Values behind a lock

A value that one holder at a time may change. A holder that dies leaves the value as it last was, and
the lock stays usable: every change made here is a single one, so the value is never half changed.
The lock remembers that a holder died, and no access depends on it.
-/

namespace Conveyor

/-- How the holder of a lock ended. -/
inductive Release where
  /-- The holder gave the lock back. -/
  | returned
  /-- The holder died with the lock in its hands. -/
  | died
  deriving DecidableEq, Repr

/-- A value behind a lock. -/
structure Guarded (α : Type) where
  /-- The value. -/
  value : α
  /-- A holder died. -/
  poisoned : Bool := false

namespace Guarded

variable {α : Type}

/-- What a reader sees, also after a holder has died. -/
def read (g : Guarded α) : α := g.value

/-- Lets a holder change the value. -/
def update (g : Guarded α) (change : α → α) (release : Release) : Guarded α where
  value := change g.value
  poisoned := g.poisoned || release == .died

@[simp] theorem read_update (g : Guarded α) (change : α → α) (release : Release) :
    (g.update change release).read = change g.read := rfl

end Guarded

end Conveyor
