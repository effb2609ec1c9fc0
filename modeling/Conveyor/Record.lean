import Conveyor.Event.Level

/-!
# Records of the program's own log

What the program says about itself while it runs: warnings and errors, and the events that a sink
writes to the log. A record has a level, a message and named details; a record with a `target` belongs
to a log of its own.
-/

namespace Conveyor

/-- One record of the log. -/
structure Record where
  /-- The log that the record is for, if it is not the program's own. -/
  target : Option String := none
  /-- The severity. -/
  level : Level
  /-- What is reported. -/
  message : String
  /-- Named details, in the order in which they are given. -/
  details : List (String × String) := []
  deriving DecidableEq

namespace Record

/-- A warning with its details. -/
def warning (message : String) (details : List (String × String)) : Record :=
  { level := .warn, message, details }

/-- An error with its details. -/
def failure (message : String) (details : List (String × String)) : Record :=
  { level := .error, message, details }

end Record

end Conveyor
