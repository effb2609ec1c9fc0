import Conveyor.Json.Number
import Conveyor.Proofs.Double.Arithmetic

/-!
# How far roundings lead

One rounding changes a number by a factor that is hardly more than one. `Near k` says that two positive
numbers differ by `k` such factors at most. Factors are multiplied in a product and in a quotient alike,
so the roundings of a computation only have to be counted.
-/

namespace Conveyor.Double

open Float.Model.UnpackedFloat

variable {s : Sign} {n j k : ℕ} {x : Float} {v w a b : ℚ}

/-- The factor of one rounding. -/
def factor : ℚ :=
  2 ^ 53 / (2 ^ 53 - 1)

theorem one_le_factor : 1 ≤ factor := by
  rw [factor]
  norm_num

/-- The numbers are positive and differ by `k` roundings at most. -/
structure Near (k : ℕ) (v a : ℚ) : Prop where
  /-- The number meant is positive. -/
  pos : 0 < v
  /-- The other one is not much less. -/
  le : v ≤ factor ^ k * a
  /-- The other one is not much greater. -/
  ge : a ≤ factor ^ k * v

theorem Near.pos_right (h : Near k v a) : 0 < a :=
  pos_of_mul_pos_right (h.pos.trans_le h.le) (pow_nonneg (zero_le_one.trans one_le_factor) k)

theorem Near.mono (h : Near j v a) (hjk : j ≤ k) : Near k v a := by
  have hpow : factor ^ j ≤ factor ^ k := pow_le_pow_right₀ one_le_factor hjk
  exact ⟨h.pos, h.le.trans (mul_le_mul_of_nonneg_right hpow h.pos_right.le),
    h.ge.trans (mul_le_mul_of_nonneg_right hpow h.pos.le)⟩

theorem near_refl (hv : 0 < v) : Near 0 v v := by
  refine ⟨hv, ?_, ?_⟩ <;> rw [pow_zero, one_mul]

/-- From two on a number is not rounded below one. -/
theorem Near.one_le (h : Near 1 v a) (hv : 2 ≤ v) : 1 ≤ a := by
  have htwo : factor ^ 1 < 2 := by
    rw [factor]
    norm_num
  have hle : 2 ≤ factor ^ 1 * a := hv.trans h.le
  by_contra hlt
  have hpos := h.pos_right
  nlinarith

theorem Near.trans (h : Near j v a) (h' : Near k a b) : Near (j + k) v b := by
  have hf (i : ℕ) : 0 ≤ factor ^ i := pow_nonneg (zero_le_one.trans one_le_factor) i
  refine ⟨h.pos, ?_, ?_⟩
  · calc v ≤ factor ^ j * a := h.le
      _ ≤ factor ^ j * (factor ^ k * b) := mul_le_mul_of_nonneg_left h'.le (hf j)
      _ = factor ^ (j + k) * b := by rw [pow_add, mul_assoc]
  · calc b ≤ factor ^ k * a := h'.ge
      _ ≤ factor ^ k * (factor ^ j * v) := mul_le_mul_of_nonneg_left h.ge (hf k)
      _ = factor ^ (j + k) * v := by rw [← mul_assoc, ← pow_add, Nat.add_comm]

theorem Near.mul (h : Near j v a) (h' : Near k w b) : Near (j + k) (v * w) (a * b) := by
  refine ⟨mul_pos h.pos h'.pos, ?_, ?_⟩
  · calc v * w ≤ factor ^ j * a * (factor ^ k * b) :=
          mul_le_mul h.le h'.le h'.pos.le (h.pos.le.trans h.le)
      _ = factor ^ (j + k) * (a * b) := by ring
  · calc a * b ≤ factor ^ j * v * (factor ^ k * w) :=
          mul_le_mul h.ge h'.ge h'.pos_right.le (h.pos_right.le.trans h.ge)
      _ = factor ^ (j + k) * (v * w) := by ring

theorem Near.inv (h : Near k v a) : Near k v⁻¹ a⁻¹ := by
  have hv := h.pos
  have ha := h.pos_right
  refine ⟨inv_pos.2 hv, ?_, ?_⟩
  · rw [← div_eq_mul_inv, le_div_iff₀ ha, inv_mul_le_iff₀ hv, mul_comm]
    exact h.ge
  · rw [← div_eq_mul_inv, le_div_iff₀ hv, inv_mul_le_iff₀ ha, mul_comm]
    exact h.le

theorem Near.div (h : Near j v a) (h' : Near k w b) : Near (j + k) (v / w) (a / b) := by
  rw [div_eq_mul_inv, div_eq_mul_inv]
  exact h.mul h'.inv

/-- An error that is a small part of the number is a few roundings. -/
theorem near_of_abs_sub_le (c : ℚ) (hv : 0 < v) (h : |a - v| ≤ c * v)
    (hlow : 1 ≤ factor ^ k * (1 - c)) (hhigh : 1 + c ≤ factor ^ k) : Near k v a := by
  have hf : 0 ≤ factor ^ k := pow_nonneg (zero_le_one.trans one_le_factor) k
  obtain ⟨hge, hle⟩ := abs_le.1 h
  refine ⟨hv, ?_, ?_⟩
  · calc v = 1 * v := (one_mul v).symm
      _ ≤ factor ^ k * (1 - c) * v := mul_le_mul_of_nonneg_right hlow hv.le
      _ = factor ^ k * (v - c * v) := by ring
      _ ≤ factor ^ k * a := mul_le_mul_of_nonneg_left (by linarith) hf
  · calc a ≤ (1 + c) * v := by linarith
      _ ≤ factor ^ k * v := mul_le_mul_of_nonneg_right hhigh hv.le

/-- A number that is not too small is rounded once. -/
theorem RoundsTo.near (h : RoundsTo s v x) (hlo : 1 ≤ v) (hhi : v < bound) :
    ∃ a, Denotes x s a ∧ Near 1 v a := by
  obtain ⟨a, ha, herror⟩ := h.exists_denotes hhi
  have hpart : |a - v| ≤ 1 / 2 ^ 53 * v := by
    refine herror.trans (max_le (by rw [div_mul_eq_mul_div, one_mul]) ?_)
    calc (2 : ℚ) ^ (-1075 : ℤ) ≤ 2 ^ (-53 : ℤ) := zpow_le_zpow_right₀ (by norm_num) (by decide)
      _ = 1 / 2 ^ 53 * 1 := by norm_num
      _ ≤ 1 / 2 ^ 53 * v := mul_le_mul_of_nonneg_left hlo (by norm_num)
  refine ⟨a, ha, near_of_abs_sub_le _ (zero_lt_one.trans_le hlo) hpart ?_ ?_⟩ <;>
    (rw [factor]; norm_num)

/-- One that is smaller, though not the smallest, is rounded by no more than five times as much. -/
theorem RoundsTo.near_of_small (h : RoundsTo s v x) (hlo : (2 : ℚ) ^ (-1024 : ℤ) ≤ v)
    (hhi : v < bound) : ∃ a, Denotes x s a ∧ Near 5 v a := by
  obtain ⟨a, ha, herror⟩ := h.exists_denotes hhi
  have hv : 0 < v := (by positivity : (0 : ℚ) < 2 ^ (-1024 : ℤ)).trans_le hlo
  have hpart : |a - v| ≤ 1 / 2 ^ 51 * v := by
    refine herror.trans (max_le ?_ ?_)
    · rw [div_mul_eq_mul_div, one_mul]
      exact div_le_div_of_nonneg_left hv.le (by norm_num) (by norm_num)
    · calc (2 : ℚ) ^ (-1075 : ℤ) = 2 ^ (-51 : ℤ) * 2 ^ (-1024 : ℤ) := by
            rw [← zpow_add₀ (by norm_num)]
            rfl
        _ = 1 / 2 ^ 51 * 2 ^ (-1024 : ℤ) := by
            congr 1
            norm_num
        _ ≤ 1 / 2 ^ 51 * v := mul_le_mul_of_nonneg_left hlo (by norm_num)
  refine ⟨a, ha, near_of_abs_sub_le _ hv hpart ?_ ?_⟩ <;> rw [factor] <;> norm_num

/-! ### Whole numbers and powers of ten -/

theorem roundsTo_ofNat (n : ℕ) : RoundsTo .positive n (Float.ofNat n) := by
  have h := roundsTo_ofScientific n (Nat.zero_le 2048)
  rwa [pow_zero, mul_one] at h

theorem roundsTo_tenTo (h : n ≤ 308) : RoundsTo .positive (10 ^ n) (Json.tenTo n) := by
  have h := roundsTo_ofScientific 1 (h.trans (by decide))
  rwa [Nat.cast_one, one_mul] at h

end Conveyor.Double
