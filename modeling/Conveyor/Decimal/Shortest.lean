/-!
# The shortest decimal of a double

A finite double other than zero is `m · 2^q` for whole numbers `m` and `q`. A decimal *denotes* it
when it lies in the interval of reals that are nearer to it than to its neighbours; the ends of the
interval belong to it when `m` is even. `shortest` finds the decimal with the fewest digits that
denotes it, and of those the nearest.

All of it is exact arithmetic on whole numbers. The grid of the multiples of `10^k` is tried for
falling `k`, and on each grid only the two points next to the double: if any point of a grid is in
the interval, one of these two is.
-/

namespace Conveyor.Decimal

/-- The size of a finite double other than zero: `mantissa · 2^exponent`. -/
structure Binary where
  /-- The mantissa, below 2⁵³. -/
  mantissa : Nat
  /-- The exponent of two. -/
  exponent : Int
  /-- The double below is only half as far away as the one above. -/
  atPower : Bool

/-- The size of a decimal: `digits · 10^exponent`. -/
structure Scientific where
  /-- The digits as a whole number. -/
  digits : Nat
  /-- The exponent of ten. -/
  exponent : Int
  deriving DecidableEq

namespace Binary

/-- The parts of a double, its sign aside; none for zero, infinities and what is no number. -/
def ofFloat? (x : Float) : Option Binary :=
  let bits : Nat := x.toBits.toNat
  let fraction : Nat := bits % Nat.pow 2 52
  let biased : Nat := bits / Nat.pow 2 52 % Nat.pow 2 11
  if biased = 2047 then none
  else if biased = 0 then
    if fraction = 0 then none else some ⟨fraction, -1074, false⟩
  else some ⟨Nat.pow 2 52 + fraction, (biased : Int) - 1075, fraction = 0 && 1 < biased⟩

/-- Four times the lower end of the interval, in units of `2^exponent`. -/
def low (b : Binary) : Nat :=
  if b.atPower then 4 * b.mantissa - 1 else 4 * b.mantissa - 2

/-- Four times the upper end of the interval, in units of `2^exponent`. -/
def high (b : Binary) : Nat :=
  4 * b.mantissa + 2

/-- The ends of the interval belong to it. -/
def closed (b : Binary) : Bool :=
  b.mantissa % 2 == 0

/-- A quarter of `2^exponent` as a fraction of `10^k`: numerator and denominator. -/
def unit (b : Binary) (k : Int) : Nat × Nat :=
  let two := b.exponent - 2
  (Nat.pow 2 two.toNat * Nat.pow 10 (-k).toNat, Nat.pow 2 (-two).toNat * Nat.pow 10 k.toNat)

/-- The point of the grid of multiples of `10^k` that denotes the double and is nearest to it. Of two
points equally near the even one counts. -/
def onGrid? (b : Binary) (k : Int) : Option Scientific :=
  let (p, q) := b.unit k
  let v := 4 * b.mantissa * p
  -- The points of the grid on both sides of the double are `below` and the next one.
  let below := v / q
  let lowHit := if b.closed then b.low * p ≤ below * q else b.low * p < below * q
  let highHit := if b.closed then (below + 1) * q ≤ b.high * p else (below + 1) * q < b.high * p
  let lowNear := 2 * (v % q) < q || (2 * (v % q) == q && below % 2 == 0)
  if lowHit && (lowNear || !highHit) then some ⟨below, k⟩
  else if highHit then some ⟨below + 1, k⟩
  else none

/-- The exponent of ten of the first grid to try: no multiple of a greater power of ten denotes the
double. -/
def firstGrid (b : Binary) : Int :=
  (b.exponent + b.mantissa.log2) * 30103 / 100000 + 2

/-- The decimal with the fewest digits that denotes the double, and of those the nearest. -/
def shortest (b : Binary) : Scientific :=
  ((List.range 22).findSome? fun n : Nat ↦ b.onGrid? (b.firstGrid - n)).getD ⟨b.mantissa, 0⟩

end Binary

end Conveyor.Decimal
