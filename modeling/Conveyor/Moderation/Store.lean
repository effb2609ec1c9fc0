import Conveyor.Moderation.Job

/-!
# The store of verdicts

Verdicts wait here for whoever asks for them, the oldest first. The store has no bound, and asking an
empty store changes nothing.
-/

namespace Conveyor.Moderation

/-- Verdicts that wait to be fetched, oldest first. -/
structure Store where
  /-- The waiting verdicts. -/
  waiting : List Verdict := []
  deriving DecidableEq

namespace Store

/-- The store without verdicts. -/
def empty : Store := {}

/-- Puts a verdict behind the others. -/
def push (s : Store) (v : Verdict) : Store :=
  ⟨s.waiting ++ [v]⟩

/-- The oldest verdict, if there is one, and the store without it. -/
def pop (s : Store) : Option Verdict × Store :=
  match s.waiting with
  | [] => (none, s)
  | v :: rest => (some v, ⟨rest⟩)

/-- The number of verdicts that wait. -/
def size (s : Store) : Nat := s.waiting.length

/-- No verdict waits. -/
def isEmpty (s : Store) : Bool := s.waiting.isEmpty

@[simp] theorem waiting_push (s : Store) (v : Verdict) : (s.push v).waiting = s.waiting ++ [v] := rfl

end Store

end Conveyor.Moderation
