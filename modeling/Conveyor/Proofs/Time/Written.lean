import Conveyor.Proofs.Decimal.Digits
import Conveyor.Time.Reading
import Conveyor.Time.Written

/-!
# Points in time are read back

Reading is more generous than writing, and it understands what was written. Each part of the written
form is read back by its own reader, whatever follows it, so `ofText?_text` is the chain of the parts.
The only parts that care for what follows are the year with a sign and the fraction, since they have
no fixed number of digits; a mark follows them both.
-/

namespace Conveyor.Time

open Decimal Text

variable {width n : Nat} {rest : List Char}

/-! ### Numbers and marks -/

theorem isBlank_of_isDigit {c : Char} (h : c.isDigit = true) : isBlank c = false := by
  simp only [Char.isDigit, ge_iff_le, Bool.and_eq_true, decide_eq_true_eq] at h
  have hlow : 48 ≤ c.toNat := h.1
  have hhigh : c.toNat ≤ 57 := h.2
  simp only [isBlank, Bool.or_eq_false_iff, Bool.and_eq_false_iff, decide_eq_false_iff_not,
    beq_eq_false_iff_ne]
  omega

/-- Nothing is trimmed in front of a number. -/
theorem trimStart_padded_append (width n : Nat) (rest : List Char) :
    trimStart (padded width n ++ rest) = padded width n ++ rest := by
  obtain ⟨d, ds, hpadded, hd⟩ := exists_padded_eq_cons width n
  rw [hpadded]
  exact trimStart_cons_of_not_blank (isBlank_of_isDigit hd)

/-- A number with leading zeros is read back if it is not too great for its digits. -/
theorem readNumber_padded (hpos : 0 < width) (hlt : n < 10 ^ width) (rest : List Char) :
    readNumber width (padded width n ++ rest) = some (n, rest) := by
  obtain ⟨d, ds, hpadded, -⟩ := exists_padded_eq_cons width n
  have hvalue := value_padded width n
  rw [readNumber, trimStart_padded_append, takeDigits_padded_append hpos hlt]
  rw [hpadded] at hvalue ⊢
  simp only [hvalue]

/-- A number with any count of digits is read back if no digit follows. -/
theorem readDigits_padded (hrest : ∀ c ∈ rest.head?, c.isDigit = false) (width n : Nat) :
    readDigits (padded width n ++ rest) = some (n, rest) := by
  obtain ⟨d, ds, hpadded, -⟩ := exists_padded_eq_cons width n
  have hvalue := value_padded width n
  rw [readDigits, span_isDigit_append (fun _ ↦ isDigit_of_mem_padded) hrest]
  rw [hpadded] at hvalue ⊢
  simp only [hvalue]

theorem readMark_cons {mark : Char} (hmark : isBlank mark = false) (rest : List Char) :
    readMark mark (mark :: rest) = some rest := by
  simp [readMark, trimStart_cons_of_not_blank hmark]

/-! ### The day -/

/-- A year is read back, whether it needs a sign or not. -/
theorem readYear_writeYear (hrest : ∀ c ∈ rest.head?, c.isDigit = false) (year : Int) :
    readYear (writeYear year ++ rest) = some (year, rest) := by
  unfold writeYear
  split
  case isTrue hshort =>
    simp only [Bool.and_eq_true, decide_eq_true_eq] at hshort
    have hlt : year.toNat < 10 ^ 4 := by omega
    have hread := readNumber_padded (by decide) hlt rest
    obtain ⟨d, ds, hpadded, hd⟩ := exists_padded_eq_cons 4 year.toNat
    rw [readYear, trimStart_padded_append, hpadded]
    rw [hpadded] at hread
    -- A digit is no sign.
    have hminus : d ≠ '-' := by rintro rfl; simp [Char.isDigit] at hd
    have hplus : d ≠ '+' := by rintro rfl; simp [Char.isDigit] at hd
    simp only [List.cons_append] at hread ⊢
    split
    · rename_i heq; exact absurd (List.cons.inj heq).1 hminus
    · rename_i heq; exact absurd (List.cons.inj heq).1 hplus
    · simp [hread]; omega
  case isFalse hlong =>
    simp only [Bool.and_eq_true, decide_eq_true_eq, not_and] at hlong
    have hread := readDigits_padded hrest 4 year.natAbs
    split
    case isTrue hnegative =>
      have hblank : isBlank '-' = false := by decide
      rw [readYear, List.cons_append, trimStart_cons_of_not_blank hblank]
      simp only [hread, Option.map_some, Option.some.injEq, Prod.mk.injEq, and_true]
      omega
    case isFalse hpositive =>
      have hblank : isBlank '+' = false := by decide
      rw [readYear, List.cons_append, trimStart_cons_of_not_blank hblank]
      simp only [hread, Option.map_some, Option.some.injEq, Prod.mk.injEq, and_true]
      omega

theorem daysInMonth_le (year : Int) (month : Nat) : daysInMonth year month ≤ 31 := by
  unfold daysInMonth
  split
  any_goals omega
  split <;> omega

/-- Only the months from 1 to 12 have days. -/
theorem month_le_of_daysInMonth_pos {year : Int} {month : Nat} (h : 0 < daysInMonth year month) :
    month ≤ 12 := by
  unfold daysInMonth at h
  split at h <;> omega

theorem Date.month_le (d : Date) : d.month ≤ 12 :=
  month_le_of_daysInMonth_pos (Nat.lt_of_lt_of_le d.exists_day.2.2.1 d.exists_day.2.2.2)

theorem Date.day_le (d : Date) : d.day ≤ 31 :=
  Nat.le_trans d.exists_day.2.2.2 (daysInMonth_le d.year d.month)

theorem Date.of?_eq_some (d : Date) : Date.of? d.year d.month d.day = some d :=
  dif_pos d.exists_day

/-- A day is read back, whatever follows. -/
theorem readDate_write (d : Date) (rest : List Char) : readDate (d.write ++ rest) = some (d, rest) := by
  have hmonth : d.month < 10 ^ 2 := by have := d.month_le; omega
  have hday : d.day < 10 ^ 2 := by have := d.day_le; omega
  have hyear : readYear (writeYear d.year ++
      '-' :: (padded 2 d.month ++ '-' :: (padded 2 d.day ++ rest))) =
        some (d.year, '-' :: (padded 2 d.month ++ '-' :: (padded 2 d.day ++ rest))) :=
    readYear_writeYear (by simp) d.year
  have hmark (cs : List Char) : readMark '-' ('-' :: cs) = some cs := readMark_cons (by decide) cs
  simp only [Date.write, readDate, List.append_assoc, List.cons_append, hyear, hmark,
    readNumber_padded (by decide) hmonth, readNumber_padded (by decide) hday, d.of?_eq_some,
    Option.bind_eq_bind, Option.bind_some, Option.pure_def]

/-! ### The time of the day -/

/-- Digits of a fraction that lacks zeros at its end. -/
theorem nanosOfDigits_padded (hpos : 0 < width) (hle : width ≤ 9) (hlt : n < 10 ^ width) :
    nanosOfDigits (padded width n) = n * 10 ^ (9 - width) := by
  have hlength := length_padded hpos hlt
  rw [nanosOfDigits, List.take_of_length_le (by omega), value_padded, hlength]
  rfl

/-- A fraction is read back from as many digits as are exact. -/
theorem readFraction_writeFraction {nano : Nat} (hlt : nano < 1000000000) (rest : List Char) :
    readFraction (writeFraction nano ++ 'Z' :: rest) = some (nano, 'Z' :: rest) := by
  have hdigits {width n : Nat} (hpos : 0 < width) (hle : width ≤ 9) (hn : n < 10 ^ width) :
      readFraction ('.' :: padded width n ++ 'Z' :: rest) =
        some (n * 10 ^ (9 - width), 'Z' :: rest) := by
    rw [← nanosOfDigits_padded hpos hle hn, List.cons_append, readFraction,
      span_isDigit_append (fun _ ↦ isDigit_of_mem_padded) (by simp)]
    obtain ⟨d, ds, hpadded, -⟩ := exists_padded_eq_cons width n
    rw [hpadded]
  unfold writeFraction
  split
  case isTrue hzero => simp [hzero, readFraction]
  case isFalse =>
    split
    case isTrue hmilli =>
      rw [hdigits (by decide) (by decide) (by omega)]
      simp only [Option.some.injEq, Prod.mk.injEq, and_true]
      omega
    case isFalse =>
      split
      case isTrue hmicro =>
        rw [hdigits (by decide) (by decide) (by omega)]
        simp only [Option.some.injEq, Prod.mk.injEq, and_true]
        omega
      case isFalse =>
        rw [hdigits (by decide) (by decide) (by omega)]
        simp

theorem TimeOfDay.of?_eq_some (t : TimeOfDay) :
    TimeOfDay.of? t.hour t.minute t.second t.nano = some t :=
  dif_pos ⟨t.hour_lt, t.minute_lt, t.second_le, t.nano_lt⟩

/-- A time is read back. -/
theorem readTime_write (t : TimeOfDay) (rest : List Char) :
    readTime (t.write ++ 'Z' :: rest) = some (t, 'Z' :: rest) := by
  have hhour : t.hour < 10 ^ 2 := by have := t.hour_lt; omega
  have hminute : t.minute < 10 ^ 2 := by have := t.minute_lt; omega
  have hsecond : t.second < 10 ^ 2 := by have := t.second_le; omega
  have hmark (cs : List Char) : readMark ':' (':' :: cs) = some cs := readMark_cons (by decide) cs
  simp only [TimeOfDay.write, readTime, List.append_assoc, List.cons_append, hmark,
    readNumber_padded (by decide) hhour, readNumber_padded (by decide) hminute,
    readNumber_padded (by decide) hsecond, readFraction_writeFraction t.nano_lt, t.of?_eq_some,
    Option.bind_eq_bind, Option.bind_some, Option.pure_def]

theorem TimeOfDay.atMinute_minutes (t : TimeOfDay) : t.atMinute t.minutes = t := by
  have hhour := t.hour_lt
  have hminute := t.minute_lt
  cases t
  simp only [TimeOfDay.atMinute, TimeOfDay.minutes, TimeOfDay.mk.injEq, and_true] at *
  omega

namespace Timestamp

/-! ### The whole -/

/-- Clocks that are not ahead show universal time. -/
theorem ofLocal?_zero (t : Timestamp) : ofLocal? t.date t.time 0 = some t := by
  have hhour := t.time.hour_lt
  have hminute := t.time.minute_lt
  have hminutes : t.time.minutes < 1440 := by unfold TimeOfDay.minutes; omega
  have hearly : ¬(t.time.minutes : Int) < 0 := by omega
  have hlate : (t.time.minutes : Int) < 1440 := by omega
  simp only [ofLocal?, Int.sub_zero, if_neg hearly, if_pos hlate, Int.toNat_natCast,
    TimeOfDay.atMinute_minutes]

/-- Every point in time is read back from its written form. -/
theorem ofText?_text (t : Timestamp) : ofText? t.text = some t := by
  have hblank : isBlank 'Z' = false := by decide
  have hoffset : readOffset ['Z'] = some (0, []) := by
    rw [readOffset, trimStart_cons_of_not_blank hblank]
    rfl
  simp only [ofText?, text, write, String.toList_ofList, ofChars?, readDate_write, readMiddle,
    readTime_write, hoffset, ofLocal?_zero, List.append_assoc, List.cons_append,
    Option.bind_eq_bind, Option.bind_some, Bool.true_or, decide_true, if_true]
  rfl

end Timestamp

end Conveyor.Time
