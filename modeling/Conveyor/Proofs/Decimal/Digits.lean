import Mathlib.Algebra.Group.Nat.Defs
import Mathlib.Data.List.TakeDrop
import Conveyor.Decimal.Digits

/-!
# Digits that are read back

A number that is written with leading zeros is denoted by its digits (`value_padded`), and the two
ways of taking digits in front of a text find exactly those that were written there: a fixed number of
them whatever follows (`takeDigits_length_append`), or all of them if no digit follows
(`span_isDigit_append`).
-/

namespace Conveyor.Decimal

variable {width n : Nat} {ds : List Char}

/-- Further digits make no number smaller. -/
theorem le_ofDigitChars (n : Nat) (ds : List Char) : n ≤ Nat.ofDigitChars 10 ds n := by
  induction ds generalizing n with
  | nil => exact Nat.le_refl _
  | cons d ds ih =>
    have hnext := ih (10 * n + (d.toNat - '0'.toNat))
    rw [Nat.ofDigitChars_cons]
    omega

/-- The digits after a number bring it below its successor followed by zeros. -/
theorem ofDigitChars_lt (hdigits : ∀ d ∈ ds, d.isDigit = true) (n : Nat) :
    Nat.ofDigitChars 10 ds n < (n + 1) * 10 ^ ds.length := by
  induction ds generalizing n with
  | nil => simp
  | cons d ds ih =>
    obtain ⟨hd, hds⟩ := List.forall_mem_cons.1 hdigits
    have hnine : d.toNat - '0'.toNat ≤ 9 := by
      have hle : d.toNat ≤ 57 := (Char.isDigit_iff_toNat.1 hd).2
      exact Nat.sub_le_iff_le_add.2 hle
    rw [Nat.ofDigitChars_cons, List.length_cons, Nat.pow_succ', ← Nat.mul_assoc]
    exact Nat.lt_of_lt_of_le (ih hds _) (Nat.mul_le_mul_right _ (by omega))

/-- A number other than zero is written without a zero in front. -/
theorem digits_ne_zero_cons (h : 0 < n) (ds : List Char) : digits n ≠ '0' :: ds := by
  intro heq
  have hvalue : Nat.ofDigitChars 10 ds 0 = n := by
    have hvalue := value_digits n
    rwa [heq, value, Nat.ofDigitChars_cons] at hvalue
  have hdigits : ∀ d ∈ ds, d.isDigit = true := fun d hd ↦
    isDigit_of_mem_digits (n := n) (heq ▸ List.mem_cons_of_mem _ hd)
  have hlt := ofDigitChars_lt hdigits 0
  rw [hvalue, Nat.zero_add, Nat.one_mul] at hlt
  -- The number would have no more digits than stand behind the zero.
  cases ds with
  | nil => exact Nat.not_lt.2 h hlt
  | cons d ds =>
    have hle := (Nat.length_toDigits_le_iff (by decide) (by simp)).2 hlt
    rw [show Nat.toDigits 10 n = digits n by rfl, heq] at hle
    exact absurd hle (by simp)

theorem exists_digits_eq_cons (h : 0 < n) : ∃ d ds, digits n = d :: ds ∧ d ≠ '0' := by
  obtain ⟨d, ds, hds⟩ := List.exists_cons_of_length_pos (l := digits n) Nat.length_toDigits_pos
  exact ⟨d, ds, hds, fun hd ↦ digits_ne_zero_cons h ds (hd ▸ hds)⟩

/-! ### Leading zeros -/

theorem isDigit_of_mem_padded {c : Char} (h : c ∈ padded width n) : c.isDigit = true := by
  rcases List.mem_append.1 h with hzero | hdigit
  · rw [List.eq_of_mem_replicate hzero]
    decide
  · exact isDigit_of_mem_digits hdigit

/-- Leading zeros change nothing about the number. -/
theorem value_padded (width n : Nat) : value (padded width n) = n := by
  rw [value, padded, Nat.ofDigitChars_append, Nat.ofDigitChars_replicate_zero, Nat.mul_zero]
  exact value_digits n

/-- A number has a first digit, and it is a digit. -/
theorem exists_padded_eq_cons (width n : Nat) :
    ∃ d ds, padded width n = d :: ds ∧ d.isDigit = true := by
  rcases hpadded : padded width n with - | ⟨d, ds⟩
  · have hpos : 0 < (digits n).length := Nat.length_toDigits_pos
    rw [padded, List.append_eq_nil_iff] at hpadded
    simp [hpadded.2] at hpos
  · have hd : d ∈ padded width n := by rw [hpadded]; exact List.mem_cons_self
    exact ⟨d, ds, rfl, isDigit_of_mem_padded hd⟩

/-- A number that is not too great has exactly as many digits as are asked for. -/
theorem length_padded (hpos : 0 < width) (hlt : n < 10 ^ width) :
    (padded width n).length = width := by
  have hle : (digits n).length ≤ width := (Nat.length_toDigits_le_iff (by decide) hpos).2 hlt
  rw [padded, List.length_append, List.length_replicate]
  omega

/-! ### Taking digits -/

/-- Digits are taken whatever follows, if no more of them are asked for. -/
theorem takeDigits_length_append (hdigits : ∀ c ∈ ds, c.isDigit = true) (rest : List Char) :
    takeDigits ds.length (ds ++ rest) = (ds, rest) := by
  induction ds with
  | nil => rfl
  | cons d ds ih =>
    obtain ⟨hd, hds⟩ := List.forall_mem_cons.1 hdigits
    simp [takeDigits, hd, ih hds]

/-- All digits are taken if no digit follows. -/
theorem span_isDigit_append {rest : List Char} (hdigits : ∀ c ∈ ds, c.isDigit = true)
    (hrest : ∀ c ∈ rest.head?, c.isDigit = false) :
    (ds ++ rest).span Char.isDigit = (ds, rest) := by
  rw [List.span_eq_takeWhile_dropWhile, List.takeWhile_append_of_pos hdigits,
    List.dropWhile_append_of_pos hdigits]
  cases rest with
  | nil => simp
  | cons c rest =>
    have hc : c.isDigit = false := hrest c rfl
    simp [hc]

/-- A number with leading zeros is taken as it was written. -/
theorem takeDigits_padded_append (hpos : 0 < width) (hlt : n < 10 ^ width) (rest : List Char) :
    takeDigits width (padded width n ++ rest) = (padded width n, rest) := by
  have hdigits : ∀ c ∈ padded width n, c.isDigit = true := fun _ ↦ isDigit_of_mem_padded
  have htaken := takeDigits_length_append hdigits rest
  rwa [length_padded hpos hlt] at htaken

end Conveyor.Decimal
