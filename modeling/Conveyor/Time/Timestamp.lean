import Conveyor.Time.Calendar

/-!
# Points in time

A `Timestamp` is a point in universal time with a resolution of a nanosecond, as clocks show it: a day
and a time of day. The second may be 60, for a leap second; the clock then still shows the same
minute. Nothing says which minutes have a leap second, so any of them may.

A point in time that is kept in memory may also be in a leap second inside a minute, which no clock
shows and no text denotes: a `DateTime` holds those too. The program does nothing with a point in time
but keep it and write it, and it writes what clocks show, so the program is modelled with timestamps.
-/

namespace Conveyor.Time

/-- A time of day as clocks show it. Leap seconds inside a minute are left out, see `DateTime`. -/
structure TimeOfDay where
  /-- The hour, below 24. -/
  hour : Nat
  /-- The minute, below 60. -/
  minute : Nat
  /-- The second, at most 60. -/
  second : Nat
  /-- The nanoseconds past the second. -/
  nano : Nat
  hour_lt : hour < 24
  minute_lt : minute < 60
  second_le : second ≤ 60
  nano_lt : nano < 1000000000
  deriving DecidableEq

namespace TimeOfDay

/-- The time with the given numbers, if there is such a time. -/
def of? (hour minute second nano : Nat) : Option TimeOfDay :=
  if h : hour < 24 ∧ minute < 60 ∧ second ≤ 60 ∧ nano < 1000000000 then
    some ⟨hour, minute, second, nano, h.1, h.2.1, h.2.2.1, h.2.2.2⟩
  else none

/-- The start of a day. -/
def midnight : TimeOfDay := ⟨0, 0, 0, 0, by decide, by decide, by decide, by decide⟩

/-- The minutes passed since midnight. -/
def minutes (t : TimeOfDay) : Nat := t.hour * 60 + t.minute

/-- The same second of the minute at a given number of minutes past midnight, which is taken
modulo a day. -/
def atMinute (t : TimeOfDay) (minutes : Nat) : TimeOfDay where
  hour := minutes / 60 % 24
  minute := minutes % 60
  second := t.second
  nano := t.nano
  hour_lt := Nat.mod_lt _ (by decide)
  minute_lt := Nat.mod_lt _ (by decide)
  second_le := t.second_le
  nano_lt := t.nano_lt

end TimeOfDay

/-- A point in universal time as clocks show it. -/
structure Timestamp where
  /-- The day. -/
  date : Date
  /-- The time of the day. -/
  time : TimeOfDay
  deriving DecidableEq

namespace Timestamp

/-- The start of the year 1970. -/
def epoch : Timestamp := ⟨.epoch, .midnight⟩

instance : Inhabited Timestamp := ⟨epoch⟩

/-- The point at which clocks that are `offset` minutes ahead of universal time show the given day
and time. The offset is less than a day, so the day in universal time is the same, the one before or
the one after; there is no such point if that day is past the end of the calendar. -/
def ofLocal? (date : Date) (time : TimeOfDay) (offset : Int) : Option Timestamp :=
  let minutes : Int := time.minutes - offset
  if minutes < 0 then date.prev?.map (⟨·, time.atMinute (minutes + 1440).toNat⟩)
  else if minutes < 1440 then some ⟨date, time.atMinute minutes.toNat⟩
  else date.next?.map (⟨·, time.atMinute (minutes - 1440).toNat⟩)

end Timestamp

end Conveyor.Time
