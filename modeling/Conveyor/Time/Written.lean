import Conveyor.Decimal.Digits
import Conveyor.Time.Timestamp

/-!
# The written form of a point in time

`YYYY-MM-DDTHH:MM:SS`, a fraction if there is one, and a `Z` for universal time. The fraction has
three, six or nine digits, the fewest that are exact. A year outside 0 to 9999 has a sign and at
least four digits.
-/

namespace Conveyor.Time

open Decimal

/-- The year: four digits, or a sign and at least four digits outside 0 to 9999. -/
def writeYear (year : Int) : List Char :=
  if 0 ≤ year && year ≤ 9999 then padded 4 year.toNat
  else (if year < 0 then '-' else '+') :: padded 4 year.natAbs

/-- The nanoseconds as a fraction with the fewest of 0, 3, 6 and 9 digits that are exact. -/
def writeFraction (nano : Nat) : List Char :=
  if nano = 0 then []
  else if nano % 1000000 = 0 then '.' :: padded 3 (nano / 1000000)
  else if nano % 1000 = 0 then '.' :: padded 6 (nano / 1000)
  else '.' :: padded 9 nano

/-- The day as year, month and day. -/
def Date.write (d : Date) : List Char :=
  writeYear d.year ++ '-' :: padded 2 d.month ++ '-' :: padded 2 d.day

/-- The time as hour, minute, second and fraction. -/
def TimeOfDay.write (t : TimeOfDay) : List Char :=
  padded 2 t.hour ++ ':' :: padded 2 t.minute ++ ':' :: padded 2 t.second ++ writeFraction t.nano

namespace Timestamp

/-- The characters of the written form. -/
def write (t : Timestamp) : List Char :=
  t.date.write ++ 'T' :: t.time.write ++ ['Z']

/-- The written form. -/
def text (t : Timestamp) : String :=
  String.ofList t.write

instance : ToString Timestamp := ⟨text⟩

end Timestamp

end Conveyor.Time
