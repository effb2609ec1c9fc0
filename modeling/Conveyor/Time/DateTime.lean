import Conveyor.Time.Timestamp

/-!
# Points in time as they are held

In memory a point in time is a day, a second of that day and a fraction that stays below two seconds.
A fraction of a second or more is a leap second, which prolongs the second before it. Such a
`DateTime` may be at any second, and clocks show it as one second more: 60 at the end of a minute, and
anywhere else the second that follows, so that there nothing tells the two apart.

`DateTime.shown` and `Timestamp.held` go between this form and the one that clocks show. Every
timestamp is shown by the point in time that holds it (`Timestamp.shown_held`). The other way a point in
time comes back *settled* (`DateTime.held_shown`), which is as it was if and only if it is *regular*:
it is in no leap second but one at the end of a minute. What clocks show and texts denote is regular.
-/

namespace Conveyor.Time

/-- A point in universal time as it is held in memory. -/
structure DateTime where
  /-- The day. -/
  date : Date
  /-- The second of the day, leap seconds not counted. -/
  second : Nat
  /-- The nanoseconds past the second; a second or more in a leap second. -/
  nano : Nat
  second_lt : second < 86400
  nano_lt : nano < 2000000000
  deriving DecidableEq

/-- The point in time at which clocks show this. The second 60 prolongs the second 59. -/
def Timestamp.held (t : Timestamp) : DateTime where
  date := t.date
  second := (t.time.hour * 60 + t.time.minute) * 60 + (t.time.second - t.time.second / 60)
  nano := t.time.nano + t.time.second / 60 * 1000000000
  second_lt := by
    have := t.time.hour_lt
    have := t.time.minute_lt
    have := t.time.second_le
    omega
  nano_lt := by
    have := t.time.second_le
    have := t.time.nano_lt
    omega

namespace DateTime

/-- What clocks show at a point in time. A leap second counts as one second more. -/
def shown (t : DateTime) : Timestamp where
  date := t.date
  time :=
    { hour := t.second / 3600
      minute := t.second / 60 % 60
      second := t.second % 60 + t.nano / 1000000000
      nano := t.nano % 1000000000
      hour_lt := by
        have := t.second_lt
        omega
      minute_lt := Nat.mod_lt _ (by decide)
      second_le := by
        have := t.nano_lt
        omega
      nano_lt := Nat.mod_lt _ (by decide) }

/-- The point in time is in no leap second, or in one at the end of a minute. -/
def IsRegular (t : DateTime) : Prop :=
  t.nano < 1000000000 ∨ t.second % 60 = 59

instance (t : DateTime) : Decidable t.IsRegular :=
  inferInstanceAs (Decidable (_ ∨ _))

/-- The point in time with a leap second inside a minute taken for the second that follows. -/
def settled (t : DateTime) : DateTime :=
  if h : t.IsRegular then t
  else
    { date := t.date
      second := t.second + 1
      nano := t.nano - 1000000000
      second_lt := by
        have := t.second_lt
        unfold IsRegular at h
        omega
      nano_lt := by
        have := t.nano_lt
        omega }

/-- A regular point in time is settled. -/
theorem settled_eq_self_iff {t : DateTime} : t.settled = t ↔ t.IsRegular := by
  unfold settled
  split
  case isTrue h => exact iff_of_true rfl h
  case isFalse h =>
    refine iff_of_false (fun heq ↦ ?_) h
    have hsecond : t.second + 1 = t.second := congrArg second heq
    omega

end DateTime

@[simp] theorem Timestamp.shown_held (t : Timestamp) : t.held.shown = t := by
  have hminute := t.time.minute_lt
  have hsecond := t.time.second_le
  have hnano := t.time.nano_lt
  obtain ⟨date, hour, minute, second, nano, _, _, _, _⟩ := t
  obtain ⟨kept, hkept, hlt⟩ : ∃ kept, second - second / 60 = kept ∧ kept < 60 :=
    ⟨_, rfl, by omega⟩
  have hminutes : ((hour * 60 + minute) * 60 + kept) / 60 = hour * 60 + minute := by omega
  simp only [DateTime.shown, held, hkept, hminutes, Timestamp.mk.injEq, TimeOfDay.mk.injEq, true_and]
  refine ⟨by omega, by omega, by omega, by omega⟩

/-- What is held of what clocks show is settled. -/
theorem DateTime.held_shown (t : DateTime) : t.shown.held = t.settled := by
  have hsecond := t.second_lt
  have hnano := t.nano_lt
  unfold settled
  split
  case isTrue h =>
    unfold IsRegular at h
    cases t
    simp only [shown, Timestamp.held, DateTime.mk.injEq, true_and] at *
    omega
  case isFalse h =>
    unfold IsRegular at h
    simp only [shown, Timestamp.held, DateTime.mk.injEq, true_and]
    omega

end Conveyor.Time
