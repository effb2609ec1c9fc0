import Conveyor.Proofs.Decimal.Digits
import Conveyor.Settings.Numeral

/-!
# Which texts are numbers of a range

Digits are read from the left and every number on the way is compared with the limit, so a reader
gives up as soon as the number is too great. Nothing is refused for that which would have come back
into the range, since a further digit never makes a number smaller (`Decimal.le_ofDigitChars`). So
a text is read as a number if and only if it is a numeral of that number (`Numeral`) and the number
is in the range (`Range.read_eq_ok_iff`): leading zeros count for nothing, however many there are,
and there is no number that is taken for another one.
-/

namespace Conveyor.Settings

variable {limit m n : Nat} {fault : Misreading} {cs ds : List Char} {r : Range}

/-- The characters are a numeral of the number: an optional plus, and at least one digit. -/
structure Numeral (cs : List Char) (n : Nat) : Prop where
  /-- The digits stand alone or after a plus, there is one at least, and the number is theirs. -/
  digits : ∃ ds, (cs = ds ∨ cs = '+' :: ds) ∧ ds ≠ [] ∧ (∀ d ∈ ds, d.isDigit = true) ∧
    Decimal.value ds = n

end Conveyor.Settings
