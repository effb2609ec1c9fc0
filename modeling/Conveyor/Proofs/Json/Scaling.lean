import Conveyor.Proofs.Decimal.Shortest
import Conveyor.Proofs.Double.Nearness

/-!
# The doubles of read numbers

A number is read as a significand that is multiplied by a power of ten or divided by one. All of it
is rounded: the significand, the power, the product or quotient, and a division in two steps the
first quotient as well. Two things are said about what comes of it. It is always finite
(`isFinite_of_scale?`), for a product that is not has no value. And when the number read is the
shortest decimal of a double, it is close to this double (`exists_scale?_shown`), and the double
itself if significand and power are exact, so that there is one rounding only
(`exists_scale?_of_short`).
-/

namespace Conveyor.Json

open Decimal Double Float.Model.UnpackedFloat

variable {s : Sign} {n m : ℕ} {e : ℤ} {x y : Float} {v a p : ℚ}

/-! ### Operands -/

theorem div_positive (s : Sign) : s / .positive = s := by
  cases s <;> rfl

theorem ten_pow_lt_bound (h : n ≤ 308) : (10 : ℚ) ^ n < bound := by
  have hnat : 10 ^ 308 ≤ (2 ^ 53 - 1) * 2 ^ 971 := by decide +kernel
  calc (10 : ℚ) ^ n ≤ 10 ^ 308 := pow_le_pow_right₀ (by norm_num) h
    _ = ((10 ^ 308 : ℕ) : ℚ) := by rw [Nat.cast_pow, Nat.cast_ofNat]
    _ ≤ (((2 ^ 53 - 1) * 2 ^ 971 : ℕ) : ℚ) := Nat.cast_le.2 hnat
    _ = (2 ^ 53 - 1) * 2 ^ (971 : ℤ) := by
      rw [Nat.cast_mul, Nat.cast_pow 2 971, Nat.cast_ofNat, ← zpow_natCast]
      norm_num
    _ < bound := mul_lt_mul_of_pos_right (by norm_num) (by positivity)

/-- The greatest power of ten is half of the first power of two that is too great, and a little more. -/
theorem three_mul_ten_pow_le : (3 * 10 ^ 308 : ℚ) ≤ 2 * 2 ^ 1024 := by
  have hnat : 3 * 10 ^ 308 ≤ 2 * 2 ^ 1024 := by decide +kernel
  have hcast : ((3 * 10 ^ 308 : ℕ) : ℚ) ≤ (2 * 2 ^ 1024 : ℕ) := Nat.cast_le.2 hnat
  rwa [Nat.cast_mul, Nat.cast_mul, Nat.cast_pow 10 308, Nat.cast_pow 2 1024, Nat.cast_ofNat,
    Nat.cast_ofNat, Nat.cast_ofNat] at hcast

/-- Powers of ten up to this one are exact. -/
theorem denotes_tenTo (h : n ≤ 22) : Denotes (tenTo n) .positive (10 ^ n) := by
  have hlt : 5 ^ n < 2 ^ 53 := (Nat.pow_le_pow_right (by decide) h).trans_lt (by decide)
  refine (roundsTo_tenTo (h.trans (by decide))).exact (ten_pow_lt_bound (h.trans (by decide))) hlt
    (by omega : -1074 ≤ (n : ℤ)) ?_
  rw [zpow_natCast, Nat.cast_pow, ← mul_pow]
  norm_num

theorem exists_denotes_tenTo (h : n ≤ 308) :
    ∃ a, Denotes (tenTo n) .positive a ∧ Near 1 (10 ^ n) a ∧ 1 ≤ a := by
  have hone : (1 : ℚ) ≤ 10 ^ n := one_le_pow₀ (by norm_num)
  rcases le_or_gt n 22 with hsmall | hgreat
  · exact ⟨_, denotes_tenTo hsmall, (near_refl (by positivity)).mono (Nat.zero_le 1), hone⟩
  · obtain ⟨a, ha, hnear⟩ := (roundsTo_tenTo h).near hone (ten_pow_lt_bound h)
    have hten : (10 : ℚ) ^ 1 ≤ 10 ^ n := pow_le_pow_right₀ (by norm_num) (by omega)
    exact ⟨a, ha, hnear, hnear.one_le (by linarith)⟩

theorem exists_denotes_ofNat (h : n < 2 ^ 64) :
    ∃ a, Denotes (Float.ofNat n) .positive a ∧ (0 < n → Near 1 n a ∧ 1 ≤ a) := by
  have hbound := natCast_lt_bound h (by decide)
  rcases lt_or_ge n 2 with hsmall | hgreat
  · have ha : Denotes (Float.ofNat n) .positive n :=
      (roundsTo_ofNat n).exact hbound (by omega : n < 2 ^ 53) (by decide : -1074 ≤ (0 : ℤ))
        (by rw [zpow_zero, mul_one])
    refine ⟨n, ha, fun hpos ↦ ?_⟩
    obtain rfl : n = 1 := by omega
    rw [Nat.cast_one]
    exact ⟨(near_refl one_pos).mono (Nat.zero_le 1), le_rfl⟩
  · have htwo : (2 : ℚ) ≤ n := by exact_mod_cast hgreat
    obtain ⟨a, ha, hnear⟩ := (roundsTo_ofNat n).near (by linarith) hbound
    exact ⟨a, ha, fun _ ↦ ⟨hnear, hnear.one_le htwo⟩⟩

/-! ### What is read is finite -/

/-- A quotient by one or more is finite. -/
theorem exists_denotes_div {b : ℚ} (hx : Denotes x s a) (hy : Denotes y .positive b) (hb : 1 ≤ b) :
    RoundsTo s (a / b) (x / y) ∧ a / b < bound := by
  have hround := hx.div hy (zero_lt_one.trans_le hb)
  rw [div_positive] at hround
  exact ⟨hround, (div_le_self hx.nonneg hb).trans_lt hx.lt_bound⟩

theorem exists_denotes_scaleDown (hx : Denotes x s a) (n : ℕ) :
    ∃ a', Denotes (scaleDown x n) s a' := by
  fun_induction scaleDown x n generalizing a with
  | case1 x n hle =>
    obtain ⟨b, hb, -, hone⟩ := exists_denotes_tenTo hle
    obtain ⟨hround, hlt⟩ := exists_denotes_div hx hb hone
    obtain ⟨a', ha', -⟩ := hround.exists_denotes hlt
    exact ⟨a', ha'⟩
  | case2 => exact ⟨a, hx⟩
  | case3 x n _ _ ih =>
    obtain ⟨b, hb, -, hone⟩ := exists_denotes_tenTo (le_refl 308)
    obtain ⟨hround, hlt⟩ := exists_denotes_div hx hb hone
    obtain ⟨a', ha', -⟩ := hround.exists_denotes hlt
    exact ih ha'

theorem isFinite_of_scaleUp? (hx : Denotes x s a) (h : scaleUp? x n = some y) :
    y.isFinite = true := by
  rw [scaleUp?] at h
  dsimp only at h
  split_ifs at h with hle hinf hzero
  · obtain ⟨b, hb, -, -⟩ := exists_denotes_tenTo hle
    obtain rfl := Option.some.inj h
    exact (hx.mul hb).isFinite (Bool.eq_false_iff.2 hinf)
  · obtain rfl := Option.some.inj h
    exact hx.isFinite

theorem isFinite_of_scale? (hn : n < 2 ^ 64) (h : scale? n e = some y) : y.isFinite = true := by
  obtain ⟨a, ha, -⟩ := exists_denotes_ofNat hn
  rw [scale?] at h
  split_ifs at h
  · exact isFinite_of_scaleUp? ha h
  · obtain ⟨a', ha'⟩ := exists_denotes_scaleDown ha e.natAbs
    obtain rfl := Option.some.inj h
    exact ha'.isFinite

/-! ### What is read is near -/

/-- A negative power of ten is divided by, in two steps perhaps. -/
theorem mul_ten_zpow_eq_div (he : e < 0) {k : ℕ} (hk : k ≤ e.natAbs) :
    (n * 10 ^ e : ℚ) = n / 10 ^ k / 10 ^ (e.natAbs - k) := by
  rw [div_div, ← pow_add, div_eq_mul_inv, ← zpow_natCast, ← zpow_neg]
  congr 2
  omega

/-- The last rounding counts for what it is, as it may be one to a very small double. -/
theorem exists_denotes_of_near (hp : Near 8 v p) (hround : RoundsTo s p y) (hlt : p < bound) :
    ∃ a, Denotes y s a ∧ |a - v| ≤ v / 2 ^ 49 + 2 ^ (-1075 : ℤ) := by
  obtain ⟨a, ha, herror⟩ := hround.exists_denotes hlt
  refine ⟨a, ha, ?_⟩
  have hfactor : (factor ^ 8 - 1) * factor ^ 8 + factor ^ 8 / 2 ^ 53 ≤ 1 / 2 ^ 49 := by
    rw [factor]
    norm_num
  have hf : 1 ≤ factor ^ 8 := one_le_pow₀ one_le_factor
  have hle := hp.le
  have hge := hp.ge
  have hv := hp.pos
  generalize factor ^ 8 = f at hf hle hge hfactor ⊢
  have hdrift : |p - v| ≤ (f - 1) * f * v := by
    rw [abs_le]
    constructor
    · nlinarith
    · calc p - v ≤ (f - 1) * v := by linarith
        _ ≤ (f - 1) * v * f := le_mul_of_one_le_right (mul_nonneg (by linarith) hv.le) hf
        _ = (f - 1) * f * v := by ring
  have hpart : max (p / 2 ^ 53) (2 ^ (-1075 : ℤ)) ≤ f / 2 ^ 53 * v + 2 ^ (-1075 : ℤ) := by
    have hpos : (0 : ℚ) < 2 ^ (-1075 : ℤ) := by positivity
    refine max_le ?_ ?_
    · rw [div_mul_eq_mul_div]
      linarith [div_le_div_of_nonneg_right hge (by norm_num : (0 : ℚ) ≤ 2 ^ 53)]
    · have : 0 ≤ f / 2 ^ 53 * v := by positivity
      linarith
  calc |a - v| ≤ |a - p| + |p - v| := abs_sub_le a p v
    _ ≤ (f / 2 ^ 53 * v + 2 ^ (-1075 : ℤ)) + (f - 1) * f * v :=
      add_le_add (herror.trans hpart) hdrift
    _ = ((f - 1) * f + f / 2 ^ 53) * v + 2 ^ (-1075 : ℤ) := by ring
    _ ≤ 1 / 2 ^ 49 * v + 2 ^ (-1075 : ℤ) := by gcongr
    _ = v / 2 ^ 49 + 2 ^ (-1075 : ℤ) := by rw [div_mul_eq_mul_div, one_mul]

/-- The first of two divisions does not lead to the very smallest doubles. -/
theorem two_zpow_le_of_near (hv : 1 ≤ v) (h : Near 2 (v / 10 ^ 308) p) :
    (2 : ℚ) ^ (-1024 : ℤ) ≤ p := by
  have hle := h.le
  have hpos := h.pos_right
  have hten := three_mul_ten_pow_le
  have hT : (0 : ℚ) ≤ 10 ^ 308 := by positivity
  have hfactor : factor ^ 2 ≤ 3 / 2 := by
    rw [factor]
    norm_num
  rw [div_le_iff₀ (by positivity)] at hle
  rw [zpow_neg, inv_le_iff_one_le_mul₀ (by positivity)]
  have htwo : (2 : ℚ) ^ (1024 : ℤ) = 2 ^ 1024 := zpow_natCast 2 1024
  rw [htwo]
  generalize (10 : ℚ) ^ 308 = T at hle hten hT
  generalize (2 : ℚ) ^ 1024 = P at hten ⊢
  calc (1 : ℚ) ≤ factor ^ 2 * p * T := hv.trans hle
    _ ≤ 3 / 2 * p * T := by gcongr
    _ = p * (3 * T / 2) := by ring
    _ ≤ p * P := mul_le_mul_of_nonneg_left (by linarith) hpos.le

section
variable (hx : Denotes x .positive a) (hnear : Near 1 v a)
include hx hnear

/-- A product that is not too great. -/
theorem exists_scaleUp? (hn : n ≤ 308) (hbound : factor ^ 2 * (v * 10 ^ n) < bound) :
    ∃ y c, scaleUp? x n = some y ∧ Denotes y .positive c ∧
      |c - v * 10 ^ n| ≤ v * 10 ^ n / 2 ^ 49 + 2 ^ (-1075 : ℤ) := by
  obtain ⟨b, hb, hnearTen, -⟩ := exists_denotes_tenTo hn
  have hproduct := hnear.mul hnearTen
  obtain ⟨c, hc, herror⟩ := exists_denotes_of_near (hproduct.mono (by decide)) (hx.mul hb)
    (hproduct.ge.trans_lt hbound)
  refine ⟨_, c, ?_, hc, herror⟩
  rw [scaleUp?, if_pos hn]
  dsimp only
  rw [hc.isInf]
  rfl

/-- A quotient. -/
theorem exists_near_scaleDown (hn : n ≤ 308) : ∃ c, Denotes (scaleDown x n) .positive c ∧
    |c - v / 10 ^ n| ≤ v / 10 ^ n / 2 ^ 49 + 2 ^ (-1075 : ℤ) := by
  obtain ⟨b, hb, hnearTen, hone⟩ := exists_denotes_tenTo hn
  obtain ⟨hround, hlt⟩ := exists_denotes_div hx hb hone
  rw [scaleDown, if_pos hn]
  exact exists_denotes_of_near ((hnear.div hnearTen).mono (by decide)) hround hlt

/-- A division in two steps, of which the first may lead to a very small double. -/
theorem exists_near_scaleDown_of_lt (hv : 1 ≤ v) (hlt : 308 < n) (hle : n ≤ 616) :
    ∃ c, Denotes (scaleDown x n) .positive c ∧ |c - v / 10 ^ 308 / 10 ^ (n - 308)| ≤
      v / 10 ^ 308 / 10 ^ (n - 308) / 2 ^ 49 + 2 ^ (-1075 : ℤ) := by
  obtain ⟨b, hb, hnearTen, hone⟩ := exists_denotes_tenTo (le_refl 308)
  obtain ⟨hround, hbound⟩ := exists_denotes_div hx hb hone
  have hquotient := hnear.div hnearTen
  obtain ⟨c, hc, hnearSmall⟩ := hround.near_of_small (two_zpow_le_of_near hv hquotient) hbound
  obtain ⟨d, hd, hnearRest, hone'⟩ := exists_denotes_tenTo (by omega : n - 308 ≤ 308)
  obtain ⟨hround', hbound'⟩ := exists_denotes_div hc hd hone'
  have hnonzero : (x == 0) = false := hx.beq_zero hnear.pos_right
  rw [scaleDown, if_neg (not_le.2 hlt), if_neg (Bool.eq_false_iff.1 hnonzero), scaleDown,
    if_pos (by omega)]
  exact exists_denotes_of_near ((hquotient.trans hnearSmall).div hnearRest) hround' hbound'

end

/-- A significand of a word, scaled to a number that is not too great. -/
theorem exists_scale? (hn : 0 < n) (hlt : n < 2 ^ 64) (hlow : -616 ≤ e) (hhigh : e ≤ 308)
    (hbound : factor ^ 2 * (n * 10 ^ e) < bound) : ∃ y a, scale? n e = some y ∧
      Denotes y .positive a ∧ |a - n * 10 ^ e| ≤ n * 10 ^ e / 2 ^ 49 + 2 ^ (-1075 : ℤ) := by
  obtain ⟨a, ha, hnear⟩ := exists_denotes_ofNat hlt
  obtain ⟨hnear, -⟩ := hnear hn
  rw [scale?]
  rcases le_or_gt 0 e with he | he
  · have hten : (10 : ℚ) ^ e = 10 ^ e.toNat := by
      rw [← zpow_natCast]
      congr 1
      omega
    rw [hten] at hbound ⊢
    rw [if_pos he]
    exact exists_scaleUp? ha hnear (by omega) hbound
  · rw [if_neg (not_le.2 he)]
    rcases le_or_gt e.natAbs 308 with hsmall | hgreat
    · have hten : (n * 10 ^ e : ℚ) = n / 10 ^ e.natAbs := by
        rw [mul_ten_zpow_eq_div he le_rfl, Nat.sub_self, pow_zero, div_one]
      obtain ⟨c, hc, herror⟩ := exists_near_scaleDown ha hnear hsmall
      exact ⟨_, c, rfl, hc, hten ▸ herror⟩
    · have hone : (1 : ℚ) ≤ n := by exact_mod_cast hn
      obtain ⟨c, hc, herror⟩ := exists_near_scaleDown_of_lt ha hnear hone hgreat (by omega)
      exact ⟨_, c, rfl, hc, mul_ten_zpow_eq_div he hgreat.le ▸ herror⟩

/-! ### Shortest decimals -/

/-- The significand and the exponent of ten that the text of a decimal is read as. A whole number is
written with a zero behind the point, which counts as a digit. -/
def shown (c : Scientific) : ℕ × ℤ :=
  if 0 ≤ c.exponent ∧ (digits c.digits).length + c.exponent ≤ 16 then
    (c.digits * 10 ^ (c.exponent.toNat + 1), -1)
  else (c.digits, c.exponent)

/-- It is the same number. -/
theorem shown_size (c : Scientific) : ((shown c).1 * 10 ^ (shown c).2 : ℚ) = c.size := by
  rw [shown, Scientific.size]
  split_ifs with h
  · have he : c.exponent = (c.exponent.toNat + 1 : ℕ) + (-1) := by omega
    conv_rhs => rw [he, zpow_add₀ (by norm_num), zpow_natCast]
    push_cast
    ring
  · rfl

/-- The three greatest doubles are read back as finite ones. -/
theorem scale?_greatest : ∀ i : Fin 3,
    ((scale? (shown (Binary.mk (2 ^ 53 - 3 + i) 971 false).shortest).1
        (shown (Binary.mk (2 ^ 53 - 3 + i) 971 false).shortest).2).any fun y ↦
      match unpacked y with
      | .finite .positive m e _ => e == 971 && 2 ^ 53 - 3 ≤ m
      | _ => false) = true := by
  decide +kernel

section
variable {b : Binary} (h : b.IsDouble)
include h

theorem shown_pos : 0 < (shown b.shortest).1 := by
  have := h.digits_pos
  rw [shown]
  split_ifs <;> positivity

theorem shown_lt : (shown b.shortest).1 < 2 ^ 57 := by
  rw [shown]
  split_ifs with hwhole
  · have hlt : b.shortest.digits < 10 ^ (digits b.shortest.digits).length :=
      (Nat.length_toDigits_le_iff (by decide) Nat.length_toDigits_pos).1 le_rfl
    have hle : (digits b.shortest.digits).length + (b.shortest.exponent.toNat + 1) ≤ 17 := by omega
    calc b.shortest.digits * 10 ^ (b.shortest.exponent.toNat + 1)
        ≤ 10 ^ (digits b.shortest.digits).length * 10 ^ (b.shortest.exponent.toNat + 1) :=
          Nat.mul_le_mul_right _ hlt.le
      _ ≤ 10 ^ 17 := by
        rw [← pow_add]
        exact Nat.pow_le_pow_right (by decide) hle
      _ < 2 ^ 57 := by decide
  · exact h.digits_lt

theorem shown_bounds : -400 < (shown b.shortest).2 ∧ (shown b.shortest).2 ≤ 308 := by
  rw [shown]
  split_ifs with hwhole
  · exact ⟨by show (-400 : ℤ) < -1; decide, by show (-1 : ℤ) ≤ 308; decide⟩
  · exact h.exponent_bounds

/-- The shortest decimal is half a unit away at most. -/
theorem abs_size_sub_le : |b.shortest.size - b.size| ≤ max (b.size / 2 ^ 53) (2 ^ (-1075 : ℤ)) := by
  have hnearest := Binary.isNearest_of_holds h.pos h.holds_shortest
  rw [abs_sub_comm]
  refine hnearest.abs_mul_sub_le.trans (half_unit_le (h.full.imp_right fun hfull ↦ ?_))
  rw [Binary.size, mul_div_cancel_right₀ _ (by positivity : (2 : ℚ) ^ b.exponent ≠ 0)]
  exact_mod_cast hfull

/-- But for the greatest doubles there is room for the roundings. -/
theorem size_le_of_not_greatest (hgreat : ¬(b.exponent = 971 ∧ 2 ^ 53 - 3 ≤ b.mantissa)) :
    factor ^ 2 * b.shortest.size < bound := by
  have hunit : (0 : ℚ) < 2 ^ (971 : ℤ) := by positivity
  have hhigh : (b.high : ℚ) * 2 ^ (b.exponent - 2) ≤ (2 ^ 53 - 7 / 2) * 2 ^ (971 : ℤ) := by
    have hle := h.greatest
    have hhigh : (b.high : ℚ) = 4 * b.mantissa + 2 := by exact_mod_cast rfl
    rcases hle.eq_or_lt with he | he
    · have hm : (b.mantissa : ℚ) + 4 ≤ 2 ^ 53 := by
        exact_mod_cast (by omega : b.mantissa + 4 ≤ 2 ^ 53)
      have hquarter : (2 : ℚ) ^ (971 : ℤ) = 2 ^ (2 : ℤ) * 2 ^ (b.exponent - 2) := by
        rw [← zpow_add₀ (by norm_num), he]
        rfl
      rw [hquarter, ← mul_assoc, hhigh]
      exact mul_le_mul_of_nonneg_right (by norm_num; linarith) (by positivity)
    · have hm : (b.mantissa : ℚ) + 1 ≤ 2 ^ 53 := by exact_mod_cast h.lt
      calc (b.high : ℚ) * 2 ^ (b.exponent - 2) ≤ 2 ^ 55 * 2 ^ (968 : ℤ) :=
            mul_le_mul (by rw [hhigh]; linarith) (zpow_le_zpow_right₀ (by norm_num) (by omega))
              (by positivity) (by norm_num)
        _ = 2 ^ 52 * 2 ^ (971 : ℤ) := by
            rw [show (971 : ℤ) = 3 + 968 by rfl, zpow_add₀ (by norm_num), ← mul_assoc]
            norm_num
        _ ≤ (2 ^ 53 - 7 / 2) * 2 ^ (971 : ℤ) :=
            mul_le_mul_of_nonneg_right (by norm_num) hunit.le
  calc factor ^ 2 * b.shortest.size ≤ factor ^ 2 * ((2 ^ 53 - 7 / 2) * 2 ^ (971 : ℤ)) :=
        mul_le_mul_of_nonneg_left (h.holds_shortest.high.trans hhigh) (sq_nonneg factor)
    _ = factor ^ 2 * (2 ^ 53 - 7 / 2) * 2 ^ (971 : ℤ) := (mul_assoc _ _ _).symm
    _ < bound := by
      refine mul_lt_mul_of_pos_right ?_ hunit
      rw [factor]
      norm_num

/-- The greatest doubles, which were tried, are read back as one of them. -/
theorem exists_scale?_of_greatest (hexponent : b.exponent = 971)
    (hle : 2 ^ 53 - 3 ≤ b.mantissa) : ∃ y a,
    scale? (shown b.shortest).1 (shown b.shortest).2 = some y ∧ Denotes y .positive a ∧
      |a - b.size| ≤ b.size / 2 ^ 48 := by
  have hlt := h.lt
  obtain ⟨i, hi⟩ : ∃ i, b.mantissa = 2 ^ 53 - 3 + i := ⟨_, (Nat.add_sub_of_le hle).symm⟩
  have hb : b = ⟨2 ^ 53 - 3 + i, 971, false⟩ := by
    have hpower := h.atPower
    rw [hexponent, decide_eq_false (by omega), Bool.false_and] at hpower
    cases b
    cases hi
    cases hexponent
    cases hpower
    rfl
  obtain ⟨y, hy, hunpacked⟩ := (Option.any_eq_true _ _).1 (scale?_greatest ⟨i, by omega⟩)
  have hy : scale? (shown b.shortest).1 (shown b.shortest).2 = some y := hb ▸ hy
  split at hunpacked
  case h_2 => cases hunpacked
  case h_1 m e hm hu =>
  rw [Bool.and_eq_true, beq_iff_eq, decide_eq_true_eq] at hunpacked
  obtain ⟨rfl, hle'⟩ := hunpacked
  refine ⟨y, _, hy, .inr ⟨m, 971, hm, hu, rfl⟩, ?_⟩
  -- Both mantissas are one of the last three.
  have hlt' : (m : ℚ) + 1 ≤ 2 ^ 53 := by exact_mod_cast (bits_of_finite hu).1.lt
  have hle' : (2 ^ 53 : ℚ) ≤ m + 3 := by exact_mod_cast Nat.sub_le_iff_le_add.1 hle'
  have hlt : (b.mantissa : ℚ) + 1 ≤ 2 ^ 53 := by exact_mod_cast hlt
  have hle : (2 ^ 53 : ℚ) ≤ b.mantissa + 3 := by exact_mod_cast Nat.sub_le_iff_le_add.1 hle
  have hunit : (0 : ℚ) < 2 ^ (971 : ℤ) := by positivity
  have hdiff : |(m : ℚ) - b.mantissa| ≤ b.mantissa / 2 ^ 48 := abs_le.2 ⟨by linarith, by linarith⟩
  rw [Binary.size, hexponent, ← sub_mul, abs_mul, abs_of_pos hunit, mul_div_right_comm]
  exact mul_le_mul_of_nonneg_right hdiff hunit.le

/-- The double is half a unit away from its shortest decimal, and that is not far from what is read. -/
theorem abs_sub_size_le (herror : |a - b.shortest.size| ≤
    b.shortest.size / 2 ^ 49 + 2 ^ (-1075 : ℤ)) :
    |a - b.size| ≤ b.size / 2 ^ 48 + 2 ^ (-1073 : ℤ) := by
  have hx : 0 ≤ b.size := by
    rw [Binary.size]
    positivity
  have heta : (2 : ℚ) ^ (-1073 : ℤ) = 4 * 2 ^ (-1075 : ℤ) := by
    rw [show (4 : ℚ) = 2 ^ (2 : ℤ) by norm_num, ← zpow_add₀ (by norm_num)]
    rfl
  have hpos : (0 : ℚ) < 2 ^ (-1075 : ℤ) := by positivity
  have hsum := (abs_size_sub_le h).trans (max_le_add_of_nonneg (by positivity) hpos.le)
  rw [heta]
  generalize (2 : ℚ) ^ (-1075 : ℤ) = η at *
  generalize b.shortest.size = v at *
  generalize b.size = x at *
  have htriangle := abs_sub_le a v x
  have hv := (abs_le.1 hsum).2
  linarith

/-- **A written double is read back as one that is near to it.** -/
theorem exists_scale?_shown : ∃ y a,
    scale? (shown b.shortest).1 (shown b.shortest).2 = some y ∧ Denotes y .positive a ∧
      |a - b.size| ≤ b.size / 2 ^ 48 + 2 ^ (-1073 : ℤ) := by
  by_cases hgreat : b.exponent = 971 ∧ 2 ^ 53 - 3 ≤ b.mantissa
  · obtain ⟨y, a, hy, ha, herror⟩ := exists_scale?_of_greatest h hgreat.1 hgreat.2
    exact ⟨y, a, hy, ha, herror.trans (le_add_of_nonneg_right (by positivity))⟩
  · have hlt := (shown_lt h).trans (by decide : 2 ^ 57 < 2 ^ 64)
    have hbounds := shown_bounds h
    obtain ⟨y, a, hy, ha, herror⟩ := exists_scale? (shown_pos h) hlt (by omega) hbounds.2
      (shown_size b.shortest ▸ size_le_of_not_greatest h hgreat)
    rw [shown_size] at herror
    exact ⟨y, a, hy, ha, abs_sub_size_le h herror⟩

/-- **A short decimal is read back as the double that it was written for.** -/
theorem exists_scale?_of_short (hdigits : (shown b.shortest).1 < 2 ^ 53)
    (hexponent : (shown b.shortest).2.natAbs ≤ 22) : ∃ y,
    scale? (shown b.shortest).1 (shown b.shortest).2 = some y ∧
      unpacked y = .finite .positive b.mantissa b.exponent h.pos := by
  have hholds := h.holds_shortest
  rw [← shown_size] at hholds
  generalize shown b.shortest = c at *
  obtain ⟨n, e⟩ := c
  dsimp only at hdigits hexponent hholds ⊢
  have hn : Denotes (Float.ofNat n) .positive n :=
    (roundsTo_ofNat n).exact (natCast_lt_bound hdigits (by decide)) hdigits
      (by decide : -1074 ≤ (0 : ℤ)) (by rw [zpow_zero, mul_one])
  rw [scale?]
  rcases le_or_gt 0 e with he | he
  · have hten : (10 : ℚ) ^ e = 10 ^ e.toNat := by
      rw [← zpow_natCast]
      congr 1
      omega
    rw [hten] at hholds
    have hunpacked := h.unpacked_of_holds hholds (hn.mul (denotes_tenTo (by omega)))
    have hinf : (Float.ofNat n * tenTo e.toNat).isInf = false := by
      show (unpacked _).isInf = false
      rw [hunpacked]
      rfl
    refine ⟨_, ?_, hunpacked⟩
    rw [if_pos he, scaleUp?, if_pos (by omega)]
    dsimp only
    rw [hinf]
    rfl
  · rw [mul_ten_zpow_eq_div he le_rfl, Nat.sub_self, pow_zero, div_one] at hholds
    have hround := hn.div (denotes_tenTo hexponent) (by positivity)
    rw [if_neg (not_le.2 he), scaleDown, if_pos (by omega)]
    exact ⟨_, rfl, h.unpacked_of_holds hholds hround⟩

end

end Conveyor.Json
