/-!
# Lifecycles

Whether a service has not been started yet, is running or has been stopped. The state only moves
forward, from `created` to `running` to `stopped` or straight to `stopped`, and a stopped service
cannot be started again. `tryStart` and `tryStop` say which of several callers made the move.
-/

namespace Conveyor

/-- How far a service has come. -/
inductive Lifecycle where
  /-- Not started yet. -/
  | created
  /-- Started and not stopped. -/
  | running
  /-- Stopped for good. -/
  | stopped
  deriving DecidableEq, Inhabited, Repr

namespace Lifecycle

/-- Moves from `created` to `running`, and says whether this call did it. -/
def tryStart : Lifecycle → Bool × Lifecycle
  | created => (true, running)
  | s => (false, s)

/-- Moves to `stopped`, and returns the state that was left unless it was `stopped` already. -/
def tryStop : Lifecycle → Option Lifecycle × Lifecycle
  | stopped => (none, stopped)
  | s => (some s, stopped)

/-- The name of a state. -/
def name : Lifecycle → String
  | created => "Created"
  | running => "Running"
  | stopped => "Stopped"

end Lifecycle

end Conveyor
