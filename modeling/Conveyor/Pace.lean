/-!
# The pace of the background

What works in the background shares one thread with the client. It works in *turns*, turns come in
*rounds*, and in the *pause* between two operations of a client there is time for some rounds. After
that the client acts again, even if the background has not come to rest.

The turns are measured in operations. An operation is one that makes a task wait if it is not
possible yet: taking an item from a queue or finding the queue closed, getting a lock or a permit,
finding that another task has ended.
-/

namespace Conveyor.Pace

/-- How many operations a task gets done at most in one turn. -/
def operationsPerTurn : Nat := 128

/-- How many turns there are at most in one round. -/
def turnsPerRound : Nat := 61

/-- How many rounds there are at most in one pause. -/
def roundsPerPause : Nat := 64

end Conveyor.Pace
