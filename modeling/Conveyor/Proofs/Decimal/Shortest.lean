import Conveyor.Proofs.Double.Arithmetic

/-!
# The shortest decimal denotes its double

On the last of the grids that are tried some point denotes the double, so the search never fails
(`IsDouble.exists_onGrid?`), and what it finds lies between the ends of the interval
(`IsDouble.holds_shortest`). Its digits are a number below `2^57` (`IsDouble.digits_lt`): on the grid
before, where nothing was found, the points lay further apart than the ends of the interval.

Whatever lies in the interval is rounded to the double (`IsDouble.unpacked_of_holds`). The ends
belong to it just when the mantissa is even, which is how ties are rounded.
-/

namespace Conveyor.Decimal

open Double

variable {b : Binary} {c : Scientific} {j k l : ℤ} {v : ℚ}

/-- The number that a decimal is. -/
def Scientific.size (c : Scientific) : ℚ :=
  c.digits * 10 ^ c.exponent

/-! ### Powers of ten and of two -/

/-- A power of ten is not greater than a power of two whose logarithm is as great, up to ten places. -/
theorem ten_zpow_le (h : 100000 * j ≤ 30103 * l) (hlo : -1100 ≤ l) (hhi : l ≤ 1100) :
    (10 : ℚ) ^ j ≤ 2 ^ (l + 10) := by
  rcases le_total 0 j with hj | hj
  · -- `10^3` is a little less than `2^10`.
    have hcube : ((10 : ℚ) ^ j) ^ 3 ≤ (2 ^ (l + 10)) ^ 3 := by
      calc ((10 : ℚ) ^ j) ^ 3 = (10 ^ 3) ^ j := by rw [← zpow_natCast, zpow_comm, zpow_natCast]
        _ ≤ (2 ^ 10) ^ j := zpow_le_zpow_left₀ hj (by norm_num) (by norm_num)
        _ = 2 ^ (10 * j) := by rw [← zpow_natCast, ← zpow_mul]; rfl
        _ ≤ 2 ^ ((l + 10) * 3) := zpow_le_zpow_right₀ (by norm_num) (by omega)
        _ = (2 ^ (l + 10)) ^ 3 := by rw [zpow_mul]; rfl
    exact le_of_pow_le_pow_left₀ (by decide) (by positivity) hcube
  · -- `10^10` is a little more than `2^33`.
    have hten : ((10 : ℚ) ^ j) ^ 10 ≤ (2 ^ (l + 10)) ^ 10 := by
      calc ((10 : ℚ) ^ j) ^ 10 = (10 ^ 10) ^ j := by rw [← zpow_natCast, zpow_comm, zpow_natCast]
        _ ≤ (2 ^ 33) ^ j := by
          have hneg : ((2 : ℚ) ^ 33) ^ (-j) ≤ (10 ^ 10) ^ (-j) :=
            zpow_le_zpow_left₀ (Int.neg_nonneg.2 hj) (by norm_num) (by norm_num)
          have hinv := inv_anti₀ (by positivity) hneg
          rwa [← zpow_neg, ← zpow_neg, neg_neg] at hinv
        _ = 2 ^ (33 * j) := by rw [← zpow_natCast, ← zpow_mul]; rfl
        _ ≤ 2 ^ ((l + 10) * 10) := zpow_le_zpow_right₀ (by norm_num) (by omega)
        _ = (2 ^ (l + 10)) ^ 10 := by rw [zpow_mul]; rfl
    exact le_of_pow_le_pow_left₀ (by decide) (by positivity) hten

/-- Nor is it less. -/
theorem two_zpow_le (h : 30103 * l ≤ 100000 * j) (hlo : -1100 ≤ l) (hhi : l ≤ 1100) :
    (2 : ℚ) ^ (l - 10) ≤ 10 ^ j := by
  have hinv := ten_zpow_le (j := -j) (l := -l) (by omega) (by omega) (by omega)
  have hneg : -l + 10 = -(l - 10) := by omega
  rw [hneg, zpow_neg, zpow_neg] at hinv
  exact (inv_le_inv₀ (by positivity) (by positivity)).1 hinv

namespace Binary

/-- The number that a double is. -/
def size (b : Binary) : ℚ :=
  b.mantissa * 2 ^ b.exponent

/-! ### The interval -/

/-- The number lies in the interval of a double. -/
structure Holds (b : Binary) (v : ℚ) : Prop where
  /-- It is not below the interval. -/
  low : b.low * 2 ^ (b.exponent - 2) ≤ v
  /-- It is not above the interval. -/
  high : v ≤ b.high * 2 ^ (b.exponent - 2)
  /-- It is at an end only if the ends belong to the interval. -/
  inside : b.closed = false → b.low * 2 ^ (b.exponent - 2) < v ∧ v < b.high * 2 ^ (b.exponent - 2)

/-- These are the parts of a double. -/
structure IsDouble (b : Binary) : Prop extends Fits b.mantissa b.exponent where
  /-- The double below is nearer if the mantissa is least and the exponent is not. -/
  atPower : b.atPower = (b.mantissa = 2 ^ 52 && -1074 < b.exponent)

theorem unit_pos (b : Binary) (k : ℤ) : 0 < (b.unit k).1 ∧ 0 < (b.unit k).2 :=
  ⟨Nat.mul_pos (Nat.pow_pos (by decide)) (Nat.pow_pos (by decide)),
    Nat.mul_pos (Nat.pow_pos (by decide)) (Nat.pow_pos (by decide))⟩

theorem natCast_div_natCast (a : ℕ) (ha : (a : ℚ) ≠ 0) (n : ℤ) :
    ((Nat.pow a n.toNat : ℕ) : ℚ) / (Nat.pow a (-n).toNat : ℕ) = a ^ n := by
  rw [Nat.pow_eq, Nat.pow_eq, Nat.cast_pow, Nat.cast_pow, ← zpow_natCast, ← zpow_natCast,
    ← zpow_sub₀ ha]
  congr 1
  omega

/-- The fraction is what it should be. -/
theorem unit_div (b : Binary) (k : ℤ) :
    ((b.unit k).1 : ℚ) / (b.unit k).2 = 2 ^ (b.exponent - 2) / 10 ^ k := by
  have htwo := natCast_div_natCast 2 (by norm_num) (b.exponent - 2)
  have hten := natCast_div_natCast 10 (by norm_num) (-k)
  rw [neg_neg] at hten
  rw [unit, Nat.cast_mul, Nat.cast_mul, mul_div_mul_comm, htwo, hten, zpow_neg, div_eq_mul_inv]
  rfl

theorem le_mul_iff (b : Binary) (k : ℤ) (n d : ℕ) :
    n * (b.unit k).1 ≤ d * (b.unit k).2 ↔ (n * 2 ^ (b.exponent - 2) : ℚ) ≤ d * 10 ^ k := by
  have hq : (0 : ℚ) < (b.unit k).2 := by exact_mod_cast (b.unit_pos k).2
  rw [← div_le_iff₀ (by positivity), mul_div_assoc, ← unit_div, ← mul_div_assoc, div_le_iff₀ hq]
  exact_mod_cast Iff.rfl

theorem mul_le_iff (b : Binary) (k : ℤ) (n d : ℕ) :
    d * (b.unit k).2 ≤ n * (b.unit k).1 ↔ (d * 10 ^ k : ℚ) ≤ n * 2 ^ (b.exponent - 2) := by
  have hq : (0 : ℚ) < (b.unit k).2 := by exact_mod_cast (b.unit_pos k).2
  rw [← le_div_iff₀ (by positivity : (0 : ℚ) < 10 ^ k), mul_div_assoc, ← unit_div, ← mul_div_assoc,
    le_div_iff₀ hq]
  exact_mod_cast Iff.rfl

/-- A point of the grid that is in the interval, by whole numbers. -/
theorem holds_of_unit {n : ℕ} (hlow : b.low * (b.unit k).1 ≤ n * (b.unit k).2)
    (hhigh : n * (b.unit k).2 ≤ b.high * (b.unit k).1)
    (hinside : b.closed = false →
      b.low * (b.unit k).1 < n * (b.unit k).2 ∧ n * (b.unit k).2 < b.high * (b.unit k).1) :
    b.Holds (Scientific.size ⟨n, k⟩) where
  low := (b.le_mul_iff k _ _).1 hlow
  high := (b.mul_le_iff k _ _).1 hhigh
  inside hopen := by
    obtain ⟨hlow, hhigh⟩ := hinside hopen
    rw [← not_le, mul_le_iff] at hlow
    rw [← not_le, le_mul_iff] at hhigh
    exact ⟨lt_of_not_ge hlow, lt_of_not_ge hhigh⟩

/-! ### One grid -/

/-- What is found on a grid is on the grid and in the interval. -/
theorem holds_of_onGrid? (h : b.onGrid? k = some c) : c.exponent = k ∧ b.Holds c.size := by
  have hp := (b.unit_pos k).1
  have hq := (b.unit_pos k).2
  rw [onGrid?] at h
  dsimp only at h
  generalize hbelow : 4 * b.mantissa * (b.unit k).1 / (b.unit k).2 = below at h
  have hle : below * (b.unit k).2 ≤ 4 * b.mantissa * (b.unit k).1 := hbelow ▸ Nat.div_mul_le_self _ _
  have hlt : 4 * b.mantissa * (b.unit k).1 < (below + 1) * (b.unit k).2 :=
    hbelow ▸ Nat.lt_mul_of_div_lt (Nat.lt_succ_self _) hq
  have hhigh : 4 * b.mantissa * (b.unit k).1 < b.high * (b.unit k).1 :=
    Nat.mul_lt_mul_of_pos_right (by rw [high]; omega) hp
  have hlow : b.low * (b.unit k).1 ≤ 4 * b.mantissa * (b.unit k).1 :=
    Nat.mul_le_mul_right _ (by rw [low]; split <;> omega)
  split_ifs at h with hclosed hfirst hsecond hfirst hsecond <;>
    obtain rfl := Option.some.inj h <;> refine ⟨rfl, ?_⟩
  · rw [Bool.and_eq_true, decide_eq_true_eq] at hfirst
    exact holds_of_unit hfirst.1 (hle.trans hhigh.le) fun hopen ↦ by
      rw [hclosed] at hopen
      cases hopen
  · exact holds_of_unit (hlow.trans hlt.le) hsecond fun hopen ↦ by
      rw [hclosed] at hopen
      cases hopen
  · rw [Bool.and_eq_true, decide_eq_true_eq] at hfirst
    exact holds_of_unit hfirst.1.le (hle.trans hhigh.le) fun _ ↦ ⟨hfirst.1, hle.trans_lt hhigh⟩
  · exact holds_of_unit (hlow.trans hlt.le) hsecond.le fun _ ↦ ⟨hlow.trans_lt hlt, hsecond⟩

/-- A grid that is finer than the interval is wide has a point in it. -/
theorem le_of_onGrid?_eq_none (hm : 0 < b.mantissa) (h : b.onGrid? k = none) :
    (3 * 2 ^ (b.exponent - 2) : ℚ) ≤ 10 ^ k := by
  have hp := (b.unit_pos k).1
  rw [onGrid?] at h
  dsimp only at h
  generalize 4 * b.mantissa * (b.unit k).1 / (b.unit k).2 = below at h
  -- Neither of the two points is in the interval, so the interval lies between them.
  have hmiss : below * (b.unit k).2 ≤ b.low * (b.unit k).1 ∧
      b.high * (b.unit k).1 ≤ (below + 1) * (b.unit k).2 := by
    split_ifs at h with hclosed hfirst hsecond hfirst hsecond
    · rw [decide_eq_false hsecond, Bool.not_false, Bool.or_true, Bool.and_true, decide_eq_true_eq]
        at hfirst
      omega
    · rw [decide_eq_false hsecond, Bool.not_false, Bool.or_true, Bool.and_true, decide_eq_true_eq]
        at hfirst
      omega
  have hwidth : b.low + 3 ≤ b.high := by
    rw [low, high]
    split <;> omega
  have hle : 3 * (b.unit k).1 ≤ 1 * (b.unit k).2 := by
    have := Nat.mul_le_mul_right (b.unit k).1 hwidth
    rw [Nat.add_mul] at this
    have := hmiss.2
    rw [Nat.add_mul] at this
    omega
  have := (b.le_mul_iff k 3 1).1 hle
  rwa [Nat.cast_one, one_mul] at this

/-- If a grid ten times as coarse is too coarse, the interval spans a few units of the grid only. -/
theorem digits_mul_three_le (hc : b.Holds c.size)
    (hcoarse : (3 * 2 ^ (b.exponent - 2) : ℚ) ≤ 10 ^ (c.exponent + 1)) :
    c.digits * 3 ≤ b.high * 10 := by
  have hunit : (0 : ℚ) < 10 ^ c.exponent := by positivity
  have hhigh := hc.high
  rw [Scientific.size] at hhigh
  rw [zpow_add_one₀ (by norm_num)] at hcoarse
  have hle : (c.digits : ℚ) * 3 ≤ b.high * 10 := by
    refine le_of_mul_le_mul_right ?_ hunit
    linarith [mul_le_mul_of_nonneg_left hcoarse (Nat.cast_nonneg b.high : (0 : ℚ) ≤ b.high)]
  exact_mod_cast hle

/-! ### The grids together -/

section
variable (h : b.IsDouble)
include h

theorem IsDouble.log2_le : b.mantissa.log2 ≤ 52 :=
  Nat.le_of_lt_succ ((Nat.log2_lt h.pos.ne').2 h.lt)

/-- The first grid is about as coarse as the double is great. -/
theorem IsDouble.firstGrid_bounds :
    (10 : ℚ) ^ (b.firstGrid - 2) ≤ 2 ^ (b.exponent + b.mantissa.log2 + 10) ∧
      (2 : ℚ) ^ (b.exponent + b.mantissa.log2 - 10) ≤ 10 ^ (b.firstGrid - 1) := by
  have := h.log2_le
  have := h.least
  have := h.greatest
  have hgrid : b.firstGrid = (b.exponent + b.mantissa.log2) * 30103 / 100000 + 2 := rfl
  exact ⟨ten_zpow_le (by omega) (by omega) (by omega), two_zpow_le (by omega) (by omega) (by omega)⟩

/-- The last grid that is tried has a point in the interval. -/
theorem IsDouble.onGrid?_last : b.onGrid? (b.firstGrid - 21) ≠ none := by
  intro hnone
  have hle := le_of_onGrid?_eq_none h.pos hnone
  have hgrid := h.firstGrid_bounds.1
  have hlog := h.log2_le
  have hlt : (10 : ℚ) ^ (b.firstGrid - 21) < 3 * 2 ^ (b.exponent - 2) := by
    calc (10 : ℚ) ^ (b.firstGrid - 21) = 10 ^ (b.firstGrid - 2) * 10 ^ (-19 : ℤ) := by
          rw [← zpow_add₀ (by norm_num)]
          congr 1
          omega
      _ ≤ 2 ^ (b.exponent + b.mantissa.log2 + 10) * 10 ^ (-19 : ℤ) :=
          mul_le_mul_of_nonneg_right hgrid (by positivity)
      _ ≤ 2 ^ (b.exponent - 2 + 64) * 10 ^ (-19 : ℤ) :=
          mul_le_mul_of_nonneg_right (zpow_le_zpow_right₀ (by norm_num) (by omega)) (by positivity)
      _ = 2 ^ (b.exponent - 2) * (2 ^ (64 : ℤ) * 10 ^ (-19 : ℤ)) := by
          rw [zpow_add₀ (by norm_num), mul_assoc]
      _ < 3 * 2 ^ (b.exponent - 2) := by
          rw [mul_comm]
          exact mul_lt_mul_of_pos_right (by norm_num) (by positivity)
  exact absurd hle (not_le.2 hlt)

/-- The search ends at the first grid with a point in the interval. -/
theorem IsDouble.exists_onGrid? : ∃ n : ℕ, n < 22 ∧ b.onGrid? (b.firstGrid - n) = some b.shortest ∧
    ∀ i : ℕ, i < n → b.onGrid? (b.firstGrid - i) = none := by
  cases hfind : (List.range 22).findSome? fun n : ℕ ↦ b.onGrid? (b.firstGrid - n) with
  | none =>
    rw [List.findSome?_eq_none_iff] at hfind
    exact absurd (hfind 21 (List.mem_range.2 (by decide))) h.onGrid?_last
  | some c =>
    have hshortest : b.shortest = c := by rw [shortest, hfind, Option.getD_some]
    obtain ⟨front, n, back, hrange, hn, hfront⟩ := List.findSome?_eq_some_iff.1 hfind
    have hlength := congrArg List.length hrange
    rw [List.length_range, List.length_append, List.length_cons] at hlength
    have hplace (i : ℕ) (hi : i < 22) : (List.range 22)[i]? = some i := List.getElem?_range hi
    have hfrontLength : front.length = n := by
      have := hplace front.length (by omega)
      rw [hrange, List.getElem?_append_right le_rfl, Nat.sub_self, List.getElem?_cons_zero] at this
      exact (Option.some.inj this).symm
    refine ⟨n, by omega, hshortest ▸ hn, fun i hi ↦ hfront i ?_⟩
    have := hplace i (by omega)
    rw [hrange, List.getElem?_append_left (by omega)] at this
    exact List.mem_of_getElem? this

/-- **The shortest decimal denotes its double.** -/
theorem IsDouble.holds_shortest : b.Holds b.shortest.size := by
  obtain ⟨n, -, hn, -⟩ := h.exists_onGrid?
  exact (holds_of_onGrid? hn).2

theorem IsDouble.digits_pos : 0 < b.shortest.digits := by
  have hlow : 0 < b.low := by
    have := h.pos
    rw [low]
    split <;> omega
  have hsize : 0 < b.shortest.size :=
    (by positivity : (0 : ℚ) < b.low * 2 ^ (b.exponent - 2)).trans_le h.holds_shortest.low
  rw [Scientific.size] at hsize
  exact_mod_cast pos_of_mul_pos_left hsize (by positivity)

theorem IsDouble.high_lt : b.high < 2 ^ 55 := by
  have := h.lt
  rw [high]
  omega

/-- On the first grid there are a few digits only. -/
theorem IsDouble.digits_mul_ten_le (hc : b.Holds c.size) (hgrid : c.exponent = b.firstGrid) :
    c.digits * 10 ≤ 2 ^ 11 := by
  have hunit := h.firstGrid_bounds.2
  have hhigh := hc.high
  rw [Scientific.size, hgrid] at hhigh
  have hbits : (b.high : ℚ) ≤ 2 ^ ((b.mantissa.log2 : ℤ) + 3) := by
    have hlt : b.mantissa < 2 ^ (b.mantissa.log2 + 1) := Nat.lt_log2_self
    exact_mod_cast (by rw [high, pow_add]; rw [pow_add] at hlt; omega :
      b.high ≤ 2 ^ (b.mantissa.log2 + 3))
  have hle : (c.digits : ℚ) * 10 ≤ 2 ^ 11 := by
    refine le_of_mul_le_mul_right ?_
      (by positivity : (0 : ℚ) < 2 ^ (b.exponent + b.mantissa.log2 - 10))
    calc (c.digits : ℚ) * 10 * 2 ^ (b.exponent + b.mantissa.log2 - 10)
        ≤ c.digits * 10 * 10 ^ (b.firstGrid - 1) :=
          mul_le_mul_of_nonneg_left hunit (by positivity)
      _ = c.digits * 10 ^ b.firstGrid := by
          rw [mul_assoc, ← zpow_one_add₀ (by norm_num)]
          congr 2
          omega
      _ ≤ b.high * 2 ^ (b.exponent - 2) := hhigh
      _ ≤ 2 ^ ((b.mantissa.log2 : ℤ) + 3) * 2 ^ (b.exponent - 2) :=
          mul_le_mul_of_nonneg_right hbits (by positivity)
      _ = 2 ^ (11 : ℤ) * 2 ^ (b.exponent + b.mantissa.log2 - 10) := by
          rw [← zpow_add₀ (by norm_num), ← zpow_add₀ (by norm_num)]
          congr 1
          omega
  exact_mod_cast hle

/-- A significand of 64 bits has room for the digits. -/
theorem IsDouble.digits_lt : b.shortest.digits < 2 ^ 57 := by
  obtain ⟨n, hn, hfound, hmissed⟩ := h.exists_onGrid?
  obtain ⟨hexponent, hholds⟩ := holds_of_onGrid? hfound
  rcases Nat.eq_zero_or_pos n with rfl | hpos
  · have hle := h.digits_mul_ten_le hholds (hexponent.trans (sub_zero _))
    omega
  · have hbefore : b.firstGrid - (n - 1 : ℕ) = b.shortest.exponent + 1 := by omega
    have hcoarse := le_of_onGrid?_eq_none h.pos (hmissed (n - 1) (by omega))
    have hle := digits_mul_three_le hholds (hbefore ▸ hcoarse)
    have hhigh := h.high_lt
    omega

theorem IsDouble.exponent_bounds : -400 < b.shortest.exponent ∧ b.shortest.exponent ≤ 308 := by
  obtain ⟨n, hn, hfound, -⟩ := h.exists_onGrid?
  obtain ⟨hexponent, hholds⟩ := holds_of_onGrid? hfound
  have hgrid : b.firstGrid = (b.exponent + b.mantissa.log2) * 30103 / 100000 + 2 := rfl
  have hleast := h.least
  refine ⟨by omega, ?_⟩
  have hdigits : (1 : ℚ) ≤ b.shortest.digits := by exact_mod_cast h.digits_pos
  have hlt : (10 : ℚ) ^ b.shortest.exponent < 10 ^ (309 : ℤ) := by
    calc (10 : ℚ) ^ b.shortest.exponent ≤ b.shortest.digits * 10 ^ b.shortest.exponent :=
          le_mul_of_one_le_left (by positivity) hdigits
      _ ≤ b.high * 2 ^ (b.exponent - 2) := hholds.high
      _ ≤ 2 ^ (55 : ℤ) * 2 ^ (969 : ℤ) := by
          have hhigh : (b.high : ℚ) ≤ 2 ^ (55 : ℤ) := by exact_mod_cast h.high_lt.le
          have := h.greatest
          exact mul_le_mul hhigh (zpow_le_zpow_right₀ (by norm_num) (by omega)) (by positivity)
            (by positivity)
      _ < 10 ^ (309 : ℤ) := by
          have htwo : (2 : ℚ) ^ (55 : ℤ) * 2 ^ (969 : ℤ) = (2 ^ 93) ^ 11 * 2 := by
            rw [← zpow_add₀ (by norm_num), ← pow_mul, ← pow_succ]
            exact zpow_natCast 2 1024
          have hten : (10 : ℚ) ^ (309 : ℤ) = (10 ^ 28) ^ 11 * 10 := by
            rw [← pow_mul, ← pow_succ]
            exact zpow_natCast 10 309
          rw [htwo, hten]
          exact mul_lt_mul (pow_lt_pow_left₀ (by norm_num) (by norm_num) (by decide)) (by norm_num)
            (by norm_num) (by positivity)
  have := (zpow_lt_zpow_iff_right₀ (by norm_num : (1 : ℚ) < 10)).1 hlt
  omega

end

/-! ### Rounding back -/

/-- On its own grid the double is the nearest point to all numbers of its interval. -/
theorem isNearest_of_holds (hm : 0 < b.mantissa) (hv : b.Holds v) :
    IsNearest (v / 2 ^ b.exponent) b.mantissa := by
  have hu : (0 : ℚ) < 2 ^ (b.exponent - 2) := by positivity
  have hunit : (2 : ℚ) ^ b.exponent = 4 * 2 ^ (b.exponent - 2) := by
    rw [show (4 : ℚ) = 2 ^ (2 : ℤ) by norm_num, ← zpow_add₀ (by norm_num)]
    congr 1
    omega
  have hlow : (4 * b.mantissa - 2 : ℚ) ≤ b.low := by
    have : 4 * b.mantissa ≤ b.low + 2 := by
      rw [low]
      split <;> omega
    have : (4 * b.mantissa : ℚ) ≤ b.low + 2 := by exact_mod_cast this
    linarith
  have hhigh : (b.high : ℚ) = 4 * b.mantissa + 2 := by exact_mod_cast rfl
  have hclosed (hodd : b.mantissa % 2 ≠ 0) : b.closed = false := by
    rw [closed]
    exact beq_eq_false_iff_ne.2 hodd
  obtain ⟨hle, hge, hinside⟩ := hv
  obtain ⟨q, rfl⟩ : ∃ q, v = 4 * q * 2 ^ (b.exponent - 2) :=
    ⟨v / 2 ^ b.exponent, by rw [hunit]; field_simp⟩
  rw [hhigh, mul_le_mul_iff_left₀ hu] at hge
  rw [mul_le_mul_iff_left₀ hu] at hle
  rw [hhigh, mul_lt_mul_iff_left₀ hu, mul_lt_mul_iff_left₀ hu] at hinside
  rw [hunit, mul_right_comm 4 q, mul_div_cancel_left₀ q (by positivity)]
  refine ⟨by linarith, by linarith, fun htie ↦ ?_⟩
  by_contra hodd
  have hstrict := hinside (hclosed hodd)
  rcases htie with htie | htie <;> linarith [hstrict.1, hstrict.2]

/-- A number of the interval that lies below the first number with so many bits is rounded on a finer
grid, up to a power of two. -/
theorem IsDouble.isNearest_of_lt (h : b.IsDouble) (hv : b.Holds v) (hne : b.exponent ≠ -1074)
    (hbelow : v < 2 ^ (b.exponent + 52)) : b.mantissa = 2 ^ 52 ∧ IsExponent v (b.exponent - 1) ∧
      IsNearest (v / 2 ^ (b.exponent - 1)) (2 ^ 53) := by
  have hu : (0 : ℚ) < 2 ^ (b.exponent - 2) := by positivity
  have hscale (k : ℕ) : (2 : ℚ) ^ (b.exponent - 2 + k) = 2 ^ k * 2 ^ (b.exponent - 2) := by
    rw [zpow_add₀ (by norm_num), zpow_natCast, mul_comm]
  rw [show b.exponent + 52 = b.exponent - 2 + (54 : ℕ) by omega, hscale] at hbelow
  have hleast := h.least
  have hlow : b.low < 2 ^ 54 := by
    exact_mod_cast lt_of_mul_lt_mul_right (hv.low.trans_lt hbelow) hu.le
  have hm : b.mantissa = 2 ^ 52 := by
    have := h.full.resolve_left hne
    rw [low] at hlow
    split at hlow <;> omega
  have hpower : b.low = 2 ^ 54 - 1 := by
    have hlower : -1074 < b.exponent := by omega
    rw [low, h.atPower, hm, decide_eq_true rfl, decide_eq_true hlower]
    rfl
  have hlo : (2 ^ 54 - 1 : ℚ) * 2 ^ (b.exponent - 2) ≤ v := by
    have hcast : (b.low : ℚ) = 2 ^ 54 - 1 := by
      rw [hpower]
      norm_num
    exact hcast ▸ hv.low
  refine ⟨hm, ⟨by omega, ?_, .inr ?_⟩, ?_⟩
  · rwa [show b.exponent - 1 + 53 = b.exponent - 2 + (54 : ℕ) by omega, hscale]
  · rw [show b.exponent - 1 + 52 = b.exponent - 2 + (53 : ℕ) by omega, hscale]
    exact (mul_le_mul_of_nonneg_right (by norm_num) hu.le).trans hlo
  · have hunit : (2 : ℚ) ^ (b.exponent - 1) = 2 * 2 ^ (b.exponent - 2) := by
      rw [show b.exponent - 1 = b.exponent - 2 + (1 : ℕ) by omega, hscale, pow_one]
    obtain ⟨q, rfl⟩ : ∃ q, v = 2 * q * 2 ^ (b.exponent - 2) :=
      ⟨v / (2 * 2 ^ (b.exponent - 2)), by field_simp⟩
    rw [mul_le_mul_iff_left₀ hu] at hlo
    rw [mul_lt_mul_iff_left₀ hu] at hbelow
    rw [hunit, mul_right_comm 2 q, mul_div_cancel_left₀ q (by positivity)]
    exact ⟨by push_cast; linarith, by push_cast; linarith, fun _ ↦ rfl⟩

/-- **A number of the interval is rounded to the double.** -/
theorem IsDouble.unpacked_of_holds (h : b.IsDouble) {s : Float.Model.UnpackedFloat.Sign}
    {x : Float} (hv : b.Holds v) (hx : RoundsTo s v x) :
    unpacked x = .finite s b.mantissa b.exponent h.pos := by
  obtain ⟨_, ⟨t, r, hgrid, hnearest, rfl⟩, rfl⟩ := hx
  by_cases hown : b.exponent = -1074 ∨ (2 : ℚ) ^ (b.exponent + 52) ≤ v
  · have hlt : v < 2 ^ (b.exponent + 53) := by
      calc v ≤ b.high * 2 ^ (b.exponent - 2) := hv.high
        _ < 2 ^ (55 : ℤ) * 2 ^ (b.exponent - 2) :=
          mul_lt_mul_of_pos_right (by exact_mod_cast h.high_lt) (by positivity)
        _ = 2 ^ (b.exponent + 53) := by
          rw [← zpow_add₀ (by norm_num)]
          congr 1
          omega
    obtain rfl : t = b.exponent := hgrid.unique ⟨h.least, hlt, hown⟩
    obtain rfl : r = b.mantissa := hnearest.unique (isNearest_of_holds h.pos hv)
    rw [settle, dif_neg h.pos.ne', if_pos h.lt]
    exact h.unpacked
  · rw [not_or, not_le] at hown
    obtain ⟨hm, hfiner, hpower⟩ := h.isNearest_of_lt hv hown.1 hown.2
    obtain rfl : t = b.exponent - 1 := hgrid.unique hfiner
    obtain rfl : r = 2 ^ 53 := hnearest.unique hpower
    have hsettle : settle s (2 ^ 53) (b.exponent - 1) = .finite s b.mantissa b.exponent h.pos := by
      rw [settle, dif_neg (by decide), if_neg (by decide)]
      congr 1
      · exact hm.symm
      · omega
    rw [hsettle]
    exact h.unpacked

end Binary

end Conveyor.Decimal
