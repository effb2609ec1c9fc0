/-!
# Values of settings

How the text of a setting is read as a number of a given range or as a truth value, and what is said
about a text that is neither.

A number is an optional sign and at least one ASCII digit. `+` is always allowed and `-` only in a
range with negative numbers. The digits are taken from the left, and the first fault counts: a
character that is no digit, or a number that has left the range.
-/

namespace Conveyor.Settings

/-- Why a text is no value of its kind. -/
inductive Misreading where
  /-- A character is no digit, or there is none. -/
  | invalidDigit
  /-- The number is above the range. -/
  | tooLarge
  /-- The number is below the range. -/
  | tooSmall
  /-- The text is no truth value. -/
  | notBool
  deriving DecidableEq, Repr

namespace Misreading

/-- The wording of a fault. -/
def message : Misreading → String
  | invalidDigit => "invalid digit found in string"
  | tooLarge => "number too large to fit in target type"
  | tooSmall => "number too small to fit in target type"
  | notBool => "provided string was not \x60true\x60 or \x60false\x60"

end Misreading

/-- The range of a kind of number. -/
structure Range where
  /-- The least number is the negative of this; with 0 there are no negative numbers. -/
  below : Nat
  /-- The greatest number. -/
  above : Nat
  deriving DecidableEq

namespace Range

/-- Words of 16 bits. -/
def word16 : Range := ⟨0, Nat.pow 2 16 - 1⟩

/-- Words of 64 bits. -/
def word64 : Range := ⟨0, Nat.pow 2 64 - 1⟩

/-- Words of 64 bits with a sign. -/
def signed64 : Range := ⟨Nat.pow 2 63, Nat.pow 2 63 - 1⟩

end Range

/-- Takes digits from the left after the number `n`, up to `limit`; `fault` is what a greater number
is. -/
def readDigits (limit : Nat) (fault : Misreading) (n : Nat) : List Char → Except Misreading Nat
  | [] => .ok n
  | d :: ds =>
    if d.isDigit then
      -- That the character is a digit is looked at before the size.
      let next := n * 10 + (d.toNat - '0'.toNat)
      if next ≤ limit then readDigits limit fault next ds else .error fault
    else .error .invalidDigit

/-- The digits of a number, at least one. -/
def readUnsigned (limit : Nat) (fault : Misreading) : List Char → Except Misreading Nat
  | [] => .error .invalidDigit
  | ds => readDigits limit fault 0 ds

/-- A number of the range. -/
def Range.read (r : Range) : List Char → Except Misreading Int
  | '+' :: ds => (readUnsigned r.above .tooLarge ds).map Int.ofNat
  | '-' :: ds =>
    if r.below = 0 then .error .invalidDigit
    else (readUnsigned r.below .tooSmall ds).map fun n ↦ -(n : Int)
  | ds => (readUnsigned r.above .tooLarge ds).map Int.ofNat

/-- A truth value, written as `true` or `false`. -/
def readBool (cs : List Char) : Except Misreading Bool :=
  if cs = "true".toList then .ok true
  else if cs = "false".toList then .ok false
  else .error .notBool

end Conveyor.Settings
