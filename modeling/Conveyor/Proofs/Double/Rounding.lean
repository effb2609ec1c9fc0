import Mathlib

/-!
# Rounding to doubles

Doubles are computed by cutting a mantissa down to 53 bits and rounding it by two residual bits, which
say how far the part that was cut off reaches. This module says in exact arithmetic what comes of it:
the number `v` is rounded on the grid of the multiples of `2^t`, where `t` leaves 53 bits before the
point but is never below `-1074` (`IsExponent`), to the point of the grid that is nearest, and halfway
between two points to the even one (`IsNearest`). `Rounds` puts both together, and
`rounds_roundWithAccuracy` is the statement about the computation.

Nothing is said here about numbers that are too great: rounding knows no greatest double.
-/

namespace Conveyor.Double

open Float.Model Float.Model.UnpackedFloat

variable {em : ExtendedMantissa} {s : Sign} {v x : ℚ} {m r r' : ℕ} {e t t' : ℤ} {acc : Accuracy}

/-! ### Residual bits -/

/-- The number is what the mantissa and its two residual bits say. -/
def Stands (em : ExtendedMantissa) (x : ℚ) : Prop :=
  match em.roundBit, em.stickyBit with
  | false, false => x = em.mantissa
  | false, true => em.mantissa < x ∧ x < em.mantissa + 1 / 2
  | true, false => x = em.mantissa + 1 / 2
  | true, true => em.mantissa + 1 / 2 < x ∧ x < em.mantissa + 1

theorem stands_exact (m : ℕ) : Stands (.ofMantissaAndAccuracy m .exact) m := rfl

/-- The mantissa is what stands before the point. -/
theorem Stands.floor (h : Stands em x) : (em.mantissa : ℚ) ≤ x ∧ x < em.mantissa + 1 := by
  rcases em with ⟨m, round, sticky⟩
  cases round <;> cases sticky <;> simp only [Stands] at h ⊢ <;> constructor <;> linarith

/-- A shift by one place moves the last bit of the mantissa among the residual bits. -/
theorem Stands.shiftRightOne (h : Stands em x) : Stands em.shiftRightOne (x / 2) := by
  rcases em with ⟨m, round, sticky⟩
  have hparts : ((m % 2 : ℕ) : ℚ) + 2 * ((m / 2 : ℕ) : ℚ) = m := by
    exact_mod_cast Nat.mod_add_div m 2
  rcases Nat.mod_two_eq_zero_or_one m with hlast | hlast <;> rw [hlast] at hparts <;>
    push_cast at hparts <;> cases round <;> cases sticky <;>
    simp only [Stands, ExtendedMantissa.shiftRightOne, hlast, Nat.reduceBneDiff, bne_self_eq_false,
      Bool.or_self, Bool.or_true, Bool.or_false] at h ⊢
  case inl.false.false | inr.false.false => linarith
  case inl.true.false | inr.true.false => exact ⟨by linarith, by linarith⟩
  all_goals exact ⟨by linarith [h.1], by linarith [h.2]⟩

theorem Stands.shiftRight (h : Stands em x) (k : ℕ) : Stands (em >>> k) (x / 2 ^ k) := by
  show Stands (k.repeat ExtendedMantissa.shiftRightOne em) _
  induction k with
  | zero => rwa [pow_zero, div_one]
  | succ k ih =>
    rw [pow_succ, ← div_div]
    exact ih.shiftRightOne

/-! ### The nearest whole number -/

/-- The whole number is nearest, and even if another one is just as near. -/
structure IsNearest (x : ℚ) (r : ℕ) : Prop where
  /-- It is not more than half too great. -/
  above : (r : ℚ) ≤ x + 1 / 2
  /-- It is not more than half too small. -/
  below : x ≤ r + 1 / 2
  /-- Halfway it is even. -/
  even : (r : ℚ) = x + 1 / 2 ∨ x = r + 1 / 2 → r % 2 = 0

theorem IsNearest.abs_sub_le (h : IsNearest x r) : |r - x| ≤ 1 / 2 :=
  abs_le.2 ⟨by linarith [h.below], by linarith [h.above]⟩

theorem isNearest_natCast (r : ℕ) : IsNearest r r where
  above := by linarith
  below := by linarith
  even := by rintro (h | h) <;> linarith

/-- No other one is. -/
theorem IsNearest.unique (h : IsNearest x r) (h' : IsNearest x r') : r = r' := by
  -- Of two that are nearest the lesser is half too small and the greater half too great.
  have hle {r r' : ℕ} (h : IsNearest x r) (h' : IsNearest x r') : r' ≤ r := by
    by_contra hlt
    have hsucc : (r : ℚ) + 1 ≤ r' := by exact_mod_cast Nat.lt_of_not_le hlt
    have hbelow := h.below
    have habove := h'.above
    have hr := h.even (.inr (by linarith))
    have hr' := h'.even (.inl (by linarith))
    have heq : r' = r + 1 := by exact_mod_cast (by linarith : (r' : ℚ) = r + 1)
    omega
  exact Nat.le_antisymm (hle h' h) (hle h h')

/-- The residual bits are enough to find it. -/
theorem Stands.isNearest (h : Stands em x) : IsNearest x em.roundedMantissa := by
  rcases em with ⟨m, round, sticky⟩
  cases round <;> cases sticky
  · obtain rfl : x = m := h
    exact isNearest_natCast m
  · obtain ⟨hlo, hhi⟩ : (m : ℚ) < x ∧ x < m + 1 / 2 := h
    show IsNearest x m
    exact ⟨by linarith, by linarith, by rintro (h | h) <;> linarith⟩
  · obtain rfl : x = m + 1 / 2 := h
    show IsNearest _ (m + m % 2)
    rcases Nat.mod_two_eq_zero_or_one m with hlast | hlast
    · rw [hlast]
      exact ⟨by push_cast; linarith, by push_cast; linarith, fun _ ↦ hlast⟩
    · rw [hlast]
      exact ⟨by push_cast; linarith, by push_cast; linarith, fun _ ↦ by omega⟩
  · obtain ⟨hlo, hhi⟩ : (m : ℚ) + 1 / 2 < x ∧ x < m + 1 := h
    show IsNearest x (m + 1)
    exact ⟨by push_cast; linarith, by push_cast; linarith,
      by push_cast; rintro (h | h) <;> linarith⟩

/-! ### The grid -/

/-- The multiples of `2^t` are the grid on which the number is rounded: it leaves 53 bits before the
point if it is not the finest one, and no more anyway. -/
structure IsExponent (v : ℚ) (t : ℤ) : Prop where
  /-- There is a finest grid. -/
  least : -1074 ≤ t
  /-- There are not more than 53 bits before the point. -/
  lt : v < 2 ^ (t + 53)
  /-- There are not fewer, but on the finest grid. -/
  le : t = -1074 ∨ 2 ^ (t + 52) ≤ v

/-- In units of the grid the number has 53 bits at most. -/
theorem IsExponent.div_lt (h : IsExponent v t) : v / 2 ^ t < 2 ^ 53 := by
  rw [div_lt_iff₀ (by positivity), ← zpow_natCast, ← zpow_add₀ (by norm_num)]
  exact add_comm t _ ▸ h.lt

/-- In units of the grid the number has 53 bits at least, but on the finest grid. -/
theorem IsExponent.le_div (h : IsExponent v t) : t = -1074 ∨ 2 ^ 52 ≤ v / 2 ^ t := by
  refine h.le.imp_right fun hle ↦ ?_
  rw [le_div_iff₀ (by positivity), ← zpow_natCast, ← zpow_add₀ (by norm_num)]
  exact add_comm t _ ▸ hle

/-- No other grid is. -/
theorem IsExponent.unique (h : IsExponent v t) (h' : IsExponent v t') : t = t' := by
  have hle {t t' : ℤ} (h : IsExponent v t) (h' : IsExponent v t') : t' ≤ t := by
    rcases h'.le with hleast | hle
    · rw [hleast]
      exact h.least
    · have hlt : t' + 52 < t + 53 := (zpow_lt_zpow_iff_right₀ (by norm_num)).1 (hle.trans_lt h.lt)
      omega
  exact le_antisymm (hle h' h) (hle h h')

/-- The nearest point has 53 bits, or it is the next power of two. -/
theorem IsNearest.le (h : IsNearest (v / 2 ^ t) r) (hgrid : IsExponent v t) : r ≤ 2 ^ 53 := by
  have hlt : (r : ℚ) < 2 ^ 53 + 1 := by linarith [h.above, hgrid.div_lt]
  exact Nat.le_of_lt_succ (by exact_mod_cast hlt)

/-- It has 53 bits at least, but on the finest grid. -/
theorem IsNearest.full (h : IsNearest (v / 2 ^ t) r) (hgrid : IsExponent v t) :
    t = -1074 ∨ 2 ^ 52 ≤ r := by
  refine hgrid.le_div.imp_right fun hle ↦ ?_
  have hlt : (2 : ℚ) ^ 52 < r + 1 := by linarith [h.below]
  exact Nat.le_of_lt_succ (by exact_mod_cast hlt)

/-- It is half a unit away at most. -/
theorem IsNearest.abs_mul_sub_le (h : IsNearest (v / 2 ^ t) r) :
    |r * 2 ^ t - v| ≤ 1 / 2 * 2 ^ t := by
  have hunit : (0 : ℚ) < 2 ^ t := by positivity
  calc |r * 2 ^ t - v| = |r - v / 2 ^ t| * 2 ^ t := by
        rw [← abs_of_pos hunit, ← abs_mul, abs_of_pos hunit, sub_mul, div_mul_cancel₀ _ hunit.ne']
    _ ≤ 1 / 2 * 2 ^ t := mul_le_mul_of_nonneg_right h.abs_sub_le hunit.le

/-- Half a unit is a small part of the number, or next to nothing. -/
theorem half_unit_le (h : t = -1074 ∨ 2 ^ 52 ≤ v / 2 ^ t) :
    1 / 2 * (2 : ℚ) ^ t ≤ max (v / 2 ^ 53) (2 ^ (-1075 : ℤ)) := by
  rcases h with rfl | hle
  · have hhalf : (2 : ℚ) ^ (-1074 : ℤ) = 2 * 2 ^ (-1075 : ℤ) := zpow_one_add₀ (by norm_num) (-1075)
    exact le_max_of_le_right (by rw [hhalf]; linarith)
  · rw [le_div_iff₀ (by positivity)] at hle
    exact le_max_of_le_left (by linarith)

/-- The double that has this many units `2^t`. With a unit too many for 53 bits it has half as many
units of twice the size. -/
def settle (s : Sign) (r : ℕ) (t : ℤ) : UnpackedFloat :=
  if h : r = 0 then .zero s
  else if r < 2 ^ 53 then .finite s r t (Nat.pos_of_ne_zero h)
  else .finite s (2 ^ 52) (t + 1) (by decide)

/-- The number is rounded to this, with the sign. -/
def Rounds (s : Sign) (v : ℚ) (u : UnpackedFloat) : Prop :=
  ∃ t r, IsExponent v t ∧ IsNearest (v / 2 ^ t) r ∧ u = settle s r t

theorem targetExponent_eq (m : ℕ) (e : ℤ) :
    Format.binary64.targetExponent (totalExponent m e) = max (m.log2 + e - 52) (-1074) := by
  simp only [Format.targetExponent, totalExponent, Format.mantissaBits, Format.minExponent]
  norm_num
  omega

/-- The computation finds the grid, if it starts with 53 bits or with a grid that is fine enough. -/
theorem isExponent_targetExponent (hm : Stands (.ofMantissaAndAccuracy m acc) (v / 2 ^ e))
    (hfull : 52 ≤ m.log2 ∨ e ≤ -1074) :
    IsExponent v (Format.binary64.targetExponent (totalExponent m e)) := by
  have hmantissa : (ExtendedMantissa.ofMantissaAndAccuracy m acc).mantissa = m := by
    rcases acc with - | (_ | _ | _) <;> rfl
  obtain ⟨hlo, hhi⟩ := hm.floor
  have hunit : (0 : ℚ) < 2 ^ e := by positivity
  rw [hmantissa, le_div_iff₀ hunit] at hlo
  rw [hmantissa, div_lt_iff₀ hunit] at hhi
  rw [targetExponent_eq]
  refine ⟨le_max_right _ _, ?_, ?_⟩
  · have hbits : (m : ℚ) + 1 ≤ 2 ^ ((m.log2 : ℤ) + 1) := by
      exact_mod_cast (Nat.lt_log2_self : m < 2 ^ (m.log2 + 1))
    calc v < (m + 1) * 2 ^ e := hhi
      _ ≤ 2 ^ ((m.log2 : ℤ) + 1) * 2 ^ e := mul_le_mul_of_nonneg_right hbits hunit.le
      _ = 2 ^ ((m.log2 : ℤ) + 1 + e) := (zpow_add₀ (by norm_num) _ _).symm
      _ ≤ 2 ^ (max ((m.log2 : ℤ) + e - 52) (-1074) + 53) :=
        zpow_le_zpow_right₀ (by norm_num) (by omega)
  · by_cases hleast : max ((m.log2 : ℤ) + e - 52) (-1074) = -1074
    · exact .inl hleast
    · have hne : m ≠ 0 := by
        rintro rfl
        rw [Nat.log2_zero] at hfull hleast
        omega
      have hbits : (2 : ℚ) ^ (m.log2 : ℤ) ≤ m := by exact_mod_cast Nat.log2_self_le hne
      refine .inr ?_
      calc (2 : ℚ) ^ (max ((m.log2 : ℤ) + e - 52) (-1074) + 52) = 2 ^ ((m.log2 : ℤ) + e) := by
            congr 1
            omega
        _ = 2 ^ (m.log2 : ℤ) * 2 ^ e := zpow_add₀ (by norm_num) _ _
        _ ≤ m * 2 ^ e := mul_le_mul_of_nonneg_right hbits hunit.le
        _ ≤ v := hlo

/-- A mantissa that fits stays as it is. -/
theorem shiftToTargetExponent_of_lt (hr : r < 2 ^ 53) (ht : -1074 ≤ t) :
    shiftToTargetExponent .binary64 r t .exact = (⟨r, false, false⟩, t) := by
  have hlog : r.log2 ≤ 52 := by
    by_cases hzero : r = 0
    · rw [hzero, Nat.log2_zero]
      exact Nat.zero_le _
    · exact Nat.le_of_lt_succ ((Nat.log2_lt hzero).2 hr)
  have hshift : (max ((r.log2 : ℤ) + t - 52) (-1074) - t).toNat = 0 := by omega
  rw [shiftToTargetExponent, targetExponent_eq, shiftToExponent, hshift]
  show ((⟨r, false, false⟩ : ExtendedMantissa), t + 0) = _
  rw [add_zero]

/-- A mantissa with a unit too many is halved. -/
theorem shiftToTargetExponent_two_pow (ht : -1074 ≤ t) :
    shiftToTargetExponent .binary64 (2 ^ 53) t .exact = (⟨2 ^ 52, false, false⟩, t + 1) := by
  have hshift : (max (((2 ^ 53 : ℕ).log2 : ℤ) + t - 52) (-1074) - t).toNat = 1 := by
    rw [Nat.log2_two_pow]
    omega
  rw [shiftToTargetExponent, targetExponent_eq, shiftToExponent, hshift]
  rfl

/-- **Rounding.** A number that is cut down to a mantissa with residual bits is rounded to the nearest
point of its grid. -/
theorem rounds_roundWithAccuracy (hm : Stands (.ofMantissaAndAccuracy m acc) (v / 2 ^ e))
    (hfull : 52 ≤ m.log2 ∨ e ≤ -1074) : Rounds s v (roundWithAccuracy .binary64 s m e acc) := by
  have hgrid := isExponent_targetExponent hm hfull
  have hfiner : e ≤ Format.binary64.targetExponent (totalExponent m e) := by
    rw [targetExponent_eq]
    omega
  rw [roundWithAccuracy, shiftToTargetExponent, shiftToExponent]
  generalize Format.binary64.targetExponent (totalExponent m e) = t at hgrid hfiner
  have ht : e + (t - e).toNat = t := by omega
  have hstands : Stands (ExtendedMantissa.ofMantissaAndAccuracy m acc >>> (t - e).toNat)
      (v / 2 ^ t) := by
    have hshifted := hm.shiftRight (t - e).toNat
    rwa [div_div, ← zpow_natCast, ← zpow_add₀ (by norm_num : (2 : ℚ) ≠ 0), ht] at hshifted
  have hnearest := hstands.isNearest
  show Rounds s v (if h : (shiftToTargetExponent .binary64
    (ExtendedMantissa.ofMantissaAndAccuracy m acc >>> (t - e).toNat).roundedMantissa
    (e + (t - e).toNat) .exact).1.mantissa = 0 then .zero s else .finite s _
      (shiftToTargetExponent .binary64
        (ExtendedMantissa.ofMantissaAndAccuracy m acc >>> (t - e).toNat).roundedMantissa
        (e + (t - e).toNat) .exact).2 (Nat.pos_of_ne_zero h))
  rw [ht]
  generalize (ExtendedMantissa.ofMantissaAndAccuracy m acc >>> (t - e).toNat).roundedMantissa = r
    at hnearest
  refine ⟨t, r, hgrid, hnearest, ?_⟩
  rcases Nat.lt_or_ge r (2 ^ 53) with hlt | hge
  · rw [shiftToTargetExponent_of_lt hlt hgrid.least, settle]
    split <;> rfl
  · have hr : r = 2 ^ 53 := Nat.le_antisymm (hnearest.le hgrid) hge
    rw [hr, shiftToTargetExponent_two_pow hgrid.least]
    rfl

end Conveyor.Double
