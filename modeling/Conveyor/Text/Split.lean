import Conveyor.Text.Blank

/-!
# Comma-separated lists

A list setting is written as parts with commas between them. Blanks around a part do not count, and
a part with nothing else in it is left out, so `splitList` never yields an empty part.
-/

namespace Conveyor.Text

/-- The pieces between the commas, at least one; a comma belongs to no piece. -/
def pieces : List Char → List (List Char)
  | [] => [[]]
  | c :: cs =>
    if c = ',' then [] :: pieces cs
    else
      match pieces cs with
      | [] => [[c]]
      | p :: ps => (c :: p) :: ps

/-- The trimmed parts that are not empty, in order. -/
def splitChars (cs : List Char) : List (List Char) :=
  ((pieces cs).map trimChars).filter fun p ↦ !p.isEmpty

/-- The parts of a comma-separated list, trimmed, without the empty ones. -/
def splitList (s : String) : List String :=
  (splitChars s.toList).map String.ofList

end Conveyor.Text
