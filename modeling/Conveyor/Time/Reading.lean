import Conveyor.Decimal.Digits
import Conveyor.Text.Blank
import Conveyor.Time.Timestamp

/-!
# Reading points in time

A point in time is read from `year-month-day`, one of `T`, `t` and a space, `hour:minute:second`, an
optional fraction and the offset from universal time. Reading is more generous than writing:

* blanks may stand in front of each number, each `-` and `:` and the offset, and at both ends;
* a month, day, hour, minute or second may have one digit, a year one to four, and a year with a sign
  any number of digits;
* digits of the fraction after the ninth are dropped;
* the offset is `Z`, `UTC` in any case, or a sign (`+`, `-` or the minus sign `U+2212`), two digits
  for the hours, any mix of colons and blanks, and two digits for the minutes.

Each part is a function from a text to its value and the rest of the text, so that the whole is one
chain of steps in `Option`.
-/

namespace Conveyor.Time

open Text Decimal

/-- A number of at least one and at most `limit` digits, blanks in front not counting. -/
def readNumber (limit : Nat) (cs : List Char) : Option (Nat × List Char) :=
  match takeDigits limit (trimStart cs) with
  | ([], _) => none
  | (ds, rest) => some (value ds, rest)

/-- A number with any count of digits, at least one, and no blanks in front. -/
def readDigits (cs : List Char) : Option (Nat × List Char) :=
  match cs.span Char.isDigit with
  | ([], _) => none
  | (ds, rest) => some (value ds, rest)

/-- A year: one to four digits, or a sign and any number of digits. -/
def readYear (cs : List Char) : Option (Int × List Char) :=
  match trimStart cs with
  | '-' :: rest => (readDigits rest).map fun (n, rest) ↦ (-(n : Int), rest)
  | '+' :: rest => (readDigits rest).map fun (n, rest) ↦ ((n : Int), rest)
  | rest => (readNumber 4 rest).map fun (n, rest) ↦ ((n : Int), rest)

/-- Passes over a separator, blanks in front of it not counting. -/
def readMark (mark : Char) (cs : List Char) : Option (List Char) :=
  match trimStart cs with
  | c :: rest => if c = mark then some rest else none
  | [] => none

/-- A day as year, month and day. -/
def readDate (cs : List Char) : Option (Date × List Char) := do
  let (year, cs) ← readYear cs
  let cs ← readMark '-' cs
  let (month, cs) ← readNumber 2 cs
  let cs ← readMark '-' cs
  let (day, cs) ← readNumber 2 cs
  let date ← Date.of? year month day
  return (date, cs)

/-- The nanoseconds that the digits of a fraction denote; the first nine count. -/
def nanosOfDigits (ds : List Char) : Nat :=
  let ds := ds.take 9
  value ds * Nat.pow 10 (9 - ds.length)

/-- An optional fraction of a second. -/
def readFraction : List Char → Option (Nat × List Char)
  | '.' :: cs =>
    match cs.span Char.isDigit with
    | ([], _) => none
    | (ds, rest) => some (nanosOfDigits ds, rest)
  | cs => some (0, cs)

/-- A time as hour, minute, second and fraction. -/
def readTime (cs : List Char) : Option (TimeOfDay × List Char) := do
  let (hour, cs) ← readNumber 2 cs
  let cs ← readMark ':' cs
  let (minute, cs) ← readNumber 2 cs
  let cs ← readMark ':' cs
  let (second, cs) ← readNumber 2 cs
  let (nano, cs) ← readFraction cs
  let time ← TimeOfDay.of? hour minute second nano
  return (time, cs)

/-- Passes over the one character between the day and the time. -/
def readMiddle : List Char → Option (List Char)
  | c :: cs => if c = 'T' || c = 't' || c = ' ' then some cs else none
  | [] => none

/-- Two digits as a number. -/
def readPair (cs : List Char) : Option (Nat × List Char) :=
  match takeDigits 2 cs with
  | (ds, rest) => if ds.length = 2 then some (value ds, rest) else none

/-- The hours and minutes of an offset, as minutes less than a day. -/
def readOffsetSize (cs : List Char) : Option (Nat × List Char) := do
  let (hours, cs) ← readPair cs
  let (minutes, cs) ← readPair (cs.dropWhile fun c ↦ c == ':' || isBlank c)
  if hours < 24 && minutes < 60 then some (hours * 60 + minutes, cs) else none

/-- The offset from universal time in minutes. -/
def readOffset (cs : List Char) : Option (Int × List Char) :=
  match trimStart cs with
  | 'Z' :: rest => some (0, rest)
  | 'z' :: rest => some (0, rest)
  | '+' :: rest => (readOffsetSize rest).map fun (n, rest) ↦ ((n : Int), rest)
  | '-' :: rest => (readOffsetSize rest).map fun (n, rest) ↦ (-(n : Int), rest)
  | '\u2212' :: rest => (readOffsetSize rest).map fun (n, rest) ↦ (-(n : Int), rest)
  | u :: t :: c :: rest =>
    -- The three letters may each be in either case.
    if (u = 'U' || u = 'u') && (t = 'T' || t = 't') && (c = 'C' || c = 'c') then some (0, rest)
    else none
  | _ => none

namespace Timestamp

/-- The point in time that a list of characters denotes. -/
def ofChars? (cs : List Char) : Option Timestamp := do
  let (date, cs) ← readDate cs
  let cs ← readMiddle cs
  let (time, cs) ← readTime cs
  let (offset, cs) ← readOffset cs
  if (trimStart cs).isEmpty then ofLocal? date time offset else none

/-- The point in time that a text denotes. -/
def ofText? (s : String) : Option Timestamp :=
  ofChars? s.toList

end Timestamp

end Conveyor.Time
