import Conveyor.Decimal.Digits

/-!
# Numbers of JSON

A number is written as an optional minus, digits, an optional fraction and an optional power of ten.
`NumberText` is the written form taken apart; `NumberText.value?` is what it denotes.

A whole number without fraction and power is exact as long as it fits a signed or unsigned word of 64
bits. Every other number is a double, found by a short computation: the digits are gathered into a
significand for as long as it fits 64 bits, the digits after that only count for the power, and the
significand is multiplied by a power of ten or divided by it once. The result is within a few units
in the last place of the number written; it is exact when the significand is below 2⁵³ and the power
is between -22 and 22. A number above the greatest double has no value.
-/

namespace Conveyor.Json

open Decimal

/-- A value that a number denotes. -/
inductive Number where
  /-- A whole number below 2⁶⁴. -/
  | natural (n : Nat)
  /-- The negative of a whole number from 1 to 2⁶³. -/
  | negative (n : Nat)
  /-- A double. -/
  | real (x : Float)

namespace Number

/-- The number as a double. -/
def toFloat : Number → Float
  | natural n => Float.ofNat n
  | negative n => -Float.ofNat n
  | real x => x

end Number

/-- A power of ten: the digits of its exponent and whether a minus stands before them. -/
structure Power where
  /-- The exponent is written with a minus. -/
  negated : Bool
  /-- The digits of the exponent. -/
  digits : List Char

/-- The parts of a written number. -/
structure NumberText where
  /-- The number is written with a minus. -/
  negated : Bool
  /-- The digits before the point. -/
  whole : List Char
  /-- The digits after the point, if there is one. -/
  fraction : Option (List Char)
  /-- The power of ten, if there is one. -/
  power : Option Power

/-- The greatest significand. -/
def maxSignificand : Nat := Nat.pow 2 64 - 1

/-- The greatest exponent that is computed with. -/
def maxExponent : Nat := Nat.pow 2 31 - 1

/-- Appends digits to a significand for as long as it fits, and returns it with the digits left. -/
def gather (significand : Nat) : List Char → Nat × List Char
  | [] => (significand, [])
  | d :: ds =>
    let next := significand * 10 + (d.toNat - '0'.toNat)
    if next ≤ maxSignificand then gather next ds else (significand, d :: ds)

/-- A power of ten as a double, for an exponent up to 308. -/
def tenTo (n : Nat) : Float :=
  Float.ofScientific 1 false n

/-- Divides by ten to the power `n`, in steps of at most `10³⁰⁸`. -/
def scaleDown (x : Float) (n : Nat) : Float :=
  if n ≤ 308 then x / tenTo n
  else if x == 0 then x
  else scaleDown (x / tenTo 308) (n - 308)
termination_by n

/-- Multiplies by ten to the power `n`, unless that is above the greatest double. -/
def scaleUp? (x : Float) (n : Nat) : Option Float :=
  if n ≤ 308 then
    let y := x * tenTo n
    if y.isInf then none else some y
  else if x == 0 then some x
  else none

/-- The double `significand · 10^exponent`, unless it is too great. -/
def scale? (significand : Nat) (exponent : Int) : Option Float :=
  let x := Float.ofNat significand
  if 0 ≤ exponent then scaleUp? x exponent.toNat else some (scaleDown x exponent.natAbs)

namespace NumberText

/-- The significand and the exponent that the digits denote, the written power aside. -/
def scaled (t : NumberText) : Nat × Int :=
  let (significand, left) := gather 0 t.whole
  match t.fraction with
  | none => (significand, left.length)
  | some ds =>
    let (significand, rest) := gather significand ds
    -- A digit left over before the point raises the exponent, one gathered after it lowers it.
    (significand, left.length - (ds.length - rest.length : Nat))

/-- The size of the number as a double. An exponent above `maxExponent` makes it zero or too great
without further computation. -/
def magnitude? (t : NumberText) : Option Float :=
  let (significand, exponent) := t.scaled
  match t.power with
  | none => scale? significand exponent
  | some p =>
    -- Eleven digits that do not start with a zero are beyond the greatest exponent already.
    let n := value (p.digits.dropWhile (· == '0') |>.take 11)
    if maxExponent < n then
      if significand != 0 && !p.negated then none else some 0
    else scale? significand (exponent + if p.negated then -(n : Int) else n)

/-- The double that the number denotes, unless it is too great. -/
def real? (t : NumberText) : Option Number :=
  t.magnitude?.map fun x ↦ .real (if t.negated then -x else x)

/-- The value of the number: exact if it is whole and fits a word, a double otherwise, and none if
it is greater than every double. -/
def value? (t : NumberText) : Option Number :=
  match t.fraction, t.power with
  | none, none =>
    match gather 0 t.whole with
    | (n, []) =>
      if !t.negated then some (.natural n)
      else if 1 ≤ n && n ≤ Nat.pow 2 63 then some (.negative n)
      else some (.real (-Float.ofNat n))
    | _ => t.real?
  | _, _ => t.real?

end NumberText

end Conveyor.Json
