import Conveyor.Proofs.Double.Packing

/-!
# Arithmetic with doubles

What an operation yields is the exact result rounded once (`RoundsTo`), for products, quotients and
decimals alike (`Denotes.mul`, `Denotes.div`, `roundsTo_ofScientific`). What rounding yields is said
apart from the operations: it is finite unless it is infinite (`RoundsTo.isFinite`), half a unit away
at most if the number is below `bound` (`RoundsTo.exists_denotes`), and the number itself if that is
a double (`RoundsTo.exact`).
-/

namespace Conveyor.Double

open Float.Model Float.Model.UnpackedFloat

variable {s s' : Sign} {m m₁ m₂ n d r : ℕ} {e e₁ e₂ t : ℤ} {x y : Float} {v a b : ℚ}
  {u : UnpackedFloat}

/-- The double is finite and has this sign and this size. -/
def Denotes (x : Float) (s : Sign) (a : ℚ) : Prop :=
  (unpacked x = .zero s ∧ a = 0) ∨ ∃ m e, ∃ h : 0 < m, unpacked x = .finite s m e h ∧ a = m * 2 ^ e

/-- The double is what the number of this size is rounded to, with the sign. -/
def RoundsTo (s : Sign) (v : ℚ) (x : Float) : Prop :=
  ∃ u, Rounds s v u ∧ x = ofUnpacked u

/-- A number by its sign and its size. -/
def signed : Sign → ℚ → ℚ
  | .positive, a => a
  | .negative, a => -a

/-- The number that a finite double is. -/
def number (x : Float) : ℚ :=
  match unpacked x with
  | .finite s m e _ => signed s (m * 2 ^ e)
  | _ => 0

theorem abs_signed (s : Sign) (a : ℚ) : |signed s a| = |a| := by
  cases s with
  | positive => rfl
  | negative => exact abs_neg a

theorem signed_sub (s : Sign) (a b : ℚ) : signed s a - signed s b = signed s (a - b) := by
  cases s with
  | positive => rfl
  | negative => exact (neg_sub_neg a b).trans (neg_sub a b).symm

theorem Denotes.number (h : Denotes x s a) : number x = signed s a := by
  rw [Double.number]
  obtain ⟨hx, rfl⟩ | ⟨m, e, hm, hx, rfl⟩ := h
  · rw [hx]
    cases s with
    | positive => rfl
    | negative => exact neg_zero.symm
  · rw [hx]

/-! ### What is rounded -/

theorem rounds_zero (s : Sign) : Rounds s 0 (.zero s) := by
  refine ⟨-1074, 0, ⟨le_rfl, by positivity, .inl rfl⟩, ?_, rfl⟩
  rw [zero_div]
  exact isNearest_natCast 0

/-- The residual bits say where a fraction lies between two whole numbers. -/
theorem stands_accuracyOfFraction (hr : r < d) (n : ℕ) :
    Stands (.ofMantissaAndAccuracy n (accuracyOfFraction r d)) (n + r / d) := by
  have hd : (0 : ℚ) < d := by exact_mod_cast Nat.zero_lt_of_lt hr
  rw [accuracyOfFraction]
  split_ifs with hzero
  · rw [hzero, Nat.cast_zero, zero_div, add_zero]
    exact stands_exact n
  · have hlo : (0 : ℚ) < r / d := div_pos (by exact_mod_cast Nat.pos_of_ne_zero hzero) hd
    have hhi : (r / d : ℚ) < 1 := (div_lt_one₀ hd).2 (by exact_mod_cast hr)
    cases hord : compare (2 * r) d with
    | lt =>
      have hlt : (r / d : ℚ) < 1 / 2 := by
        rw [div_lt_div_iff₀ hd (by norm_num)]
        exact_mod_cast (by have := Nat.compare_eq_lt.1 hord; omega : r * 2 < 1 * d)
      show (n : ℚ) < n + r / d ∧ (n + r / d : ℚ) < n + 1 / 2
      exact ⟨by linarith, by linarith⟩
    | eq =>
      have heq : (r / d : ℚ) = 1 / 2 := by
        rw [div_eq_div_iff hd.ne' (by norm_num)]
        exact_mod_cast (by have := Nat.compare_eq_eq.1 hord; omega : r * 2 = 1 * d)
      exact congrArg _ heq
    | gt =>
      have hgt : (1 / 2 : ℚ) < r / d := by
        rw [div_lt_div_iff₀ (by norm_num) hd]
        exact_mod_cast (by have := Nat.compare_eq_gt.1 hord; omega : 1 * d < r * 2)
      show (n + 1 / 2 : ℚ) < n + r / d ∧ (n + r / d : ℚ) < n + 1
      exact ⟨by linarith, by linarith⟩

/-- A division with a remainder says where the quotient lies. -/
theorem stands_div (hd : 0 < d) :
    Stands (.ofMantissaAndAccuracy (n / d) (accuracyOfFraction (n % d) d)) (n / d) := by
  have hn : (n : ℚ) / d = (n / d : ℕ) + (n % d : ℕ) / d := by
    have hparts : ((d * (n / d) + n % d : ℕ) : ℚ) = n := by exact_mod_cast Nat.div_add_mod n d
    have hpos : (0 : ℚ) < d := by exact_mod_cast hd
    rw [← hparts]
    push_cast
    field_simp
  rw [hn]
  exact stands_accuracyOfFraction (Nat.mod_lt n hd) (n / d)

/-- A product is rounded once. -/
theorem rounds_mul (hfull : 52 ≤ (m₁ * m₂).log2 ∨ e₁ + e₂ ≤ -1074) {h₁ : 0 < m₁} {h₂ : 0 < m₂} :
    Rounds (s * s') (m₁ * 2 ^ e₁ * (m₂ * 2 ^ e₂))
      (mul .binary64 (.finite s m₁ e₁ h₁) (.finite s' m₂ e₂ h₂)) := by
  have hvalue : (m₁ * 2 ^ e₁ * (m₂ * 2 ^ e₂) / 2 ^ (e₁ + e₂) : ℚ) = (m₁ * m₂ : ℕ) := by
    rw [zpow_add₀ (by norm_num), Nat.cast_mul]
    field_simp
  have hstands : Stands (.ofMantissaAndAccuracy (m₁ * m₂) .exact)
      (m₁ * 2 ^ e₁ * (m₂ * 2 ^ e₂) / 2 ^ (e₁ + e₂)) := by
    rw [hvalue]
    exact stands_exact _
  exact rounds_roundWithAccuracy hstands hfull

theorem le_log2 {k n : ℕ} (h : 2 ^ k ≤ n) : k ≤ n.log2 :=
  (Nat.le_log2 (by have := Nat.two_pow_pos k; omega)).2 h

/-- A quotient is rounded once. -/
theorem rounds_div {h₁ : 0 < m₁} {h₂ : 0 < m₂} :
    Rounds (s / s') (m₁ * 2 ^ e₁ / (m₂ * 2 ^ e₂))
      (div .binary64 (.finite s m₁ e₁ h₁) (.finite s' m₂ e₂ h₂)) := by
  show Rounds _ _ (roundWithAccuracy .binary64 (s / s') (divCore .binary64 m₁ e₁ m₂ e₂).1
    (divCore .binary64 m₁ e₁ m₂ e₂).2.1 (divCore .binary64 m₁ e₁ m₂ e₂).2.2)
  have htarget : Format.binary64.targetExponent (totalExponent m₁ e₁ - totalExponent m₂ e₂) =
      max (m₁.log2 + e₁ - (m₂.log2 + e₂) - 53) (-1074) := by
    simp only [Format.targetExponent, totalExponent, Format.mantissaBits, Format.minExponent]
    norm_num
    omega
  rw [divCore, htarget]
  generalize ht : min (e₁ - e₂) (max (m₁.log2 + e₁ - (m₂.log2 + e₂) - 53) (-1074)) = t
  have hshift : ((e₁ - e₂ - t).toNat : ℤ) = e₁ - e₂ - t := by omega
  generalize (e₁ - e₂ - t).toNat = k at hshift
  refine rounds_roundWithAccuracy ?_ ?_
  · have hvalue : (m₁ * 2 ^ e₁ / (m₂ * 2 ^ e₂) / 2 ^ t : ℚ) = (m₁ <<< k : ℕ) / m₂ := by
      have he : e₁ = e₂ + t + k := by omega
      rw [he, zpow_add₀ (by norm_num), zpow_add₀ (by norm_num), zpow_natCast, Nat.shiftLeft_eq]
      push_cast
      have : (m₂ : ℚ) ≠ 0 := by exact_mod_cast h₂.ne'
      field_simp
    rw [hvalue]
    exact stands_div h₂
  · by_cases hleast : t ≤ -1074
    · exact .inr hleast
    · left
      have hk : m₂.log2 + 53 ≤ m₁.log2 + k := by omega
      refine le_log2 ((Nat.le_div_iff_mul_le h₂).2 ?_)
      calc 2 ^ 52 * m₂ ≤ 2 ^ 52 * 2 ^ (m₂.log2 + 1) := Nat.mul_le_mul_left _ Nat.lt_log2_self.le
        _ = 2 ^ (m₂.log2 + 53) := by rw [← pow_add]; congr 1; omega
        _ ≤ 2 ^ (m₁.log2 + k) := Nat.pow_le_pow_right (by decide) hk
        _ = 2 ^ m₁.log2 * 2 ^ k := pow_add _ _ _
        _ ≤ m₁ * 2 ^ k := Nat.mul_le_mul_right _ (Nat.log2_self_le h₁.ne')
        _ = m₁ <<< k := (Nat.shiftLeft_eq _ _).symm

/-- A number is rounded, wherever its point stands. -/
theorem rounds_round (hm : 0 < m) : Rounds s (m * 2 ^ e) (UnpackedFloat.round .binary64 s m e) := by
  rw [UnpackedFloat.round, targetExponent_eq, decreaseExponent]
  generalize ht : max ((m.log2 : ℤ) + e - 52) (-1074) = t
  show Rounds s _ (roundWithAccuracy .binary64 s (m <<< (e - t).toNat) (e - (e - t).toNat) .exact)
  generalize hk : (e - t).toNat = k
  refine rounds_roundWithAccuracy ?_ ?_
  · have hvalue : (m * 2 ^ e / 2 ^ (e - k) : ℚ) = (m <<< k : ℕ) := by
      have he : e = (e - k) + k := by omega
      rw [Nat.shiftLeft_eq]
      push_cast
      conv_lhs => rw [he, add_sub_cancel_right, zpow_add₀ (by norm_num), zpow_natCast]
      field_simp
    rw [hvalue]
    exact stands_exact _
  · by_cases hleast : e - k ≤ -1074
    · exact .inr hleast
    · left
      have hlog : 52 ≤ m.log2 + k := by omega
      refine le_log2 ?_
      calc 2 ^ 52 ≤ 2 ^ (m.log2 + k) := Nat.pow_le_pow_right (by decide) hlog
        _ = 2 ^ m.log2 * 2 ^ k := pow_add _ _ _
        _ ≤ m * 2 ^ k := Nat.mul_le_mul_right _ (Nat.log2_self_le hm.ne')
        _ = m <<< k := (Nat.shiftLeft_eq _ _).symm

/-! ### Sizes -/

theorem Denotes.nonneg (h : Denotes x s a) : 0 ≤ a := by
  obtain ⟨-, rfl⟩ | ⟨m, e, -, -, rfl⟩ := h
  · exact le_rfl
  · positivity

theorem Denotes.isFinite (h : Denotes x s a) : x.isFinite = true := by
  show (unpacked x).isFinite = true
  obtain ⟨hx, -⟩ | ⟨m, e, hm, hx, -⟩ := h <;> rw [hx] <;> rfl

theorem Denotes.isInf (h : Denotes x s a) : x.isInf = false := by
  show (unpacked x).isInf = false
  obtain ⟨hx, -⟩ | ⟨m, e, hm, hx, -⟩ := h <;> rw [hx] <;> rfl

/-- A double that is not zero does not equal zero. -/
theorem Denotes.beq_zero (h : Denotes x s a) (ha : 0 < a) : (x == 0) = false := by
  have hzero : unpacked 0 = .zero .positive := rfl
  show (unpacked x).beq (unpacked 0) = false
  obtain ⟨-, rfl⟩ | ⟨m, e, hm, hx, -⟩ := h
  · exact absurd ha (lt_irrefl 0)
  · rw [hx, hzero]
    cases s <;> rfl

/-- Every finite double has a sign and a size. -/
theorem exists_denotes (h : x.isFinite = true) : ∃ s a, Denotes x s a := by
  have hfinite : (unpacked x).isFinite = true := h
  cases hu : unpacked x with
  | zero s => exact ⟨s, 0, .inl ⟨hu, rfl⟩⟩
  | finite s m e hm => exact ⟨s, _, .inr ⟨m, e, hm, hu, rfl⟩⟩
  | infinity s => rw [hu] at hfinite; cases hfinite
  | notANumber => rw [hu] at hfinite; cases hfinite

/-- From here on numbers are rounded to infinity: half a unit above the greatest double. -/
def bound : ℚ :=
  (2 ^ 53 - 1 / 2) * 2 ^ (971 : ℤ)

theorem two_zpow_le_bound : (2 : ℚ) ^ (1023 : ℤ) ≤ bound := by
  rw [bound, show (1023 : ℤ) = 52 + 971 by rfl, zpow_add₀ (by norm_num)]
  exact mul_le_mul_of_nonneg_right (by norm_num) (by positivity)

theorem natCast_lt_bound {k : ℕ} (hn : n < 2 ^ k) (hk : k ≤ 1023) : (n : ℚ) < bound := by
  have hpow : (n : ℚ) < 2 ^ (k : ℤ) := by
    rw [zpow_natCast]
    exact_mod_cast hn
  refine (hpow.trans_le ?_).trans_le two_zpow_le_bound
  exact zpow_le_zpow_right₀ (by norm_num) (by exact_mod_cast hk)

theorem Fits.le (h : Fits m e) : (m * 2 ^ e : ℚ) ≤ (2 ^ 53 - 1) * 2 ^ (971 : ℤ) := by
  have hm : (m : ℚ) + 1 ≤ 2 ^ 53 := by exact_mod_cast h.lt
  have he : (2 : ℚ) ^ e ≤ 2 ^ (971 : ℤ) := zpow_le_zpow_right₀ (by norm_num) h.greatest
  exact mul_le_mul (by linarith) he (by positivity) (by norm_num)

theorem Denotes.lt_bound (h : Denotes x s a) : a < bound := by
  have hunit : (0 : ℚ) < 2 ^ (971 : ℤ) := by positivity
  obtain ⟨-, rfl⟩ | ⟨m, e, hm, hx, rfl⟩ := h
  · exact mul_pos (by norm_num) hunit
  · exact (bits_of_finite hx).1.le.trans_lt (mul_lt_mul_of_pos_right (by norm_num) hunit)

/-! ### What rounding yields -/

/-- A point of the grid is a double, unless it is too great. -/
theorem denotes_settle_or (hgrid : IsExponent v t) (hnearest : IsNearest (v / 2 ^ t) r) :
    Denotes (ofUnpacked (settle s r t)) s (r * 2 ^ t) ∨
      unpacked (ofUnpacked (settle s r t)) = .infinity s ∧ bound ≤ v := by
  have hunit : (0 : ℚ) < 2 ^ t := by positivity
  have hleast := hgrid.least
  -- On a grid that is too coarse, or above the last power of two, there is no double.
  have hgreat (htop : 971 < t) : bound ≤ v := by
    refine le_trans ?_ (hgrid.le.resolve_left (by omega))
    calc bound ≤ 2 ^ 53 * 2 ^ (971 : ℤ) := mul_le_mul_of_nonneg_right (by norm_num) (by positivity)
      _ = 2 ^ (53 + 971 : ℤ) := by rw [zpow_add₀ (by norm_num)]; rfl
      _ ≤ 2 ^ (t + 52) := zpow_le_zpow_right₀ (by norm_num) (by omega)
  rw [settle]
  split_ifs with hzero hlt
  · exact .inl (.inl ⟨unpacked_zero s, by rw [hzero, Nat.cast_zero, zero_mul]⟩)
  · rcases le_or_gt t 971 with htop | htop
    · have hfits : Fits r t :=
        ⟨Nat.pos_of_ne_zero hzero, hlt, hleast, htop, hnearest.full hgrid⟩
      exact .inl (.inr ⟨r, t, hfits.pos, hfits.unpacked, rfl⟩)
    · exact .inr ⟨unpacked_of_lt _ htop, hgreat htop⟩
  · -- The number is rounded up to a power of two.
    obtain rfl : r = 2 ^ 53 := Nat.le_antisymm (hnearest.le hgrid) (Nat.le_of_not_lt hlt)
    rcases lt_or_ge t 971 with htop | htop
    · have hfits : Fits (2 ^ 52) (t + 1) := ⟨by decide, by decide, by omega, by omega, .inr le_rfl⟩
      refine .inl (.inr ⟨2 ^ 52, t + 1, hfits.pos, hfits.unpacked, ?_⟩)
      rw [zpow_add_one₀ (by norm_num)]
      push_cast
      ring
    · refine .inr ⟨unpacked_of_lt _ (by omega), ?_⟩
      rcases htop.eq_or_lt with rfl | htop
      · have habove := hnearest.above
        rw [Nat.cast_pow, Nat.cast_ofNat] at habove
        rw [bound, ← le_div_iff₀ hunit]
        generalize v / 2 ^ (971 : ℤ) = w at habove
        linarith only [habove]
      · exact hgreat htop

theorem denotes_settle (hgrid : IsExponent v t) (hnearest : IsNearest (v / 2 ^ t) r)
    (hv : v < bound) : Denotes (ofUnpacked (settle s r t)) s (r * 2 ^ t) :=
  (denotes_settle_or hgrid hnearest).resolve_right fun h ↦ absurd h.2 (not_le.2 hv)

/-- What is rounded is finite or infinite, but always a number. -/
theorem RoundsTo.isFinite (h : RoundsTo s v x) (hinf : x.isInf = false) : x.isFinite = true := by
  obtain ⟨_, ⟨t, r, hgrid, hnearest, rfl⟩, rfl⟩ := h
  rcases denotes_settle_or hgrid hnearest with hdenotes | ⟨hinfinity, -⟩
  · exact hdenotes.isFinite
  · have : (unpacked (ofUnpacked (settle s r t))).isInf = false := hinf
    rw [hinfinity] at this
    cases this

/-- A number that is not too great is rounded to a double, half a unit away at most. -/
theorem RoundsTo.exists_denotes (h : RoundsTo s v x) (hv : v < bound) :
    ∃ a, Denotes x s a ∧ |a - v| ≤ max (v / 2 ^ 53) (2 ^ (-1075 : ℤ)) := by
  obtain ⟨_, ⟨t, r, hgrid, hnearest, rfl⟩, rfl⟩ := h
  exact ⟨_, denotes_settle hgrid hnearest hv,
    hnearest.abs_mul_sub_le.trans (half_unit_le hgrid.le_div)⟩

/-- A number that is a double is rounded to itself. -/
theorem RoundsTo.exact (h : RoundsTo s v x) (hv : v < bound) (hm : m < 2 ^ 53) (he : -1074 ≤ e)
    (heq : v = m * 2 ^ e) : Denotes x s v := by
  obtain ⟨_, ⟨t, r, hgrid, hnearest, rfl⟩, rfl⟩ := h
  have hunit : (0 : ℚ) < 2 ^ t := by positivity
  -- The grid is no coarser than the double, so the number is one of its points.
  have hfiner : t ≤ e := by
    rcases hgrid.le with rfl | hle
    · exact he
    · have hlt : v < 2 ^ (e + 53) := by
        rw [heq, add_comm, zpow_add₀ (by norm_num)]
        exact mul_lt_mul_of_pos_right (by exact_mod_cast hm) (by positivity)
      have := (zpow_lt_zpow_iff_right₀ (by norm_num : (1 : ℚ) < 2)).1 (hle.trans_lt hlt)
      omega
  have hpoint : v / 2 ^ t = (m * 2 ^ (e - t).toNat : ℕ) := by
    have hsplit : e = (e - t).toNat + t := by omega
    rw [heq, hsplit, zpow_add₀ (by norm_num), zpow_natCast, ← mul_assoc,
      mul_div_cancel_right₀ _ hunit.ne', ← hsplit]
    push_cast
    rfl
  have hr : (r : ℚ) = v / 2 ^ t :=
    hpoint ▸ congrArg _ (hnearest.unique (hpoint ▸ isNearest_natCast _))
  have hdenotes : Denotes _ s _ := denotes_settle hgrid hnearest hv
  rwa [hr, div_mul_cancel₀ _ hunit.ne'] at hdenotes

/-! ### Operations -/

theorem Denotes.mul (hx : Denotes x s a) (hy : Denotes y s' b) :
    RoundsTo (s * s') (a * b) (x * y) := by
  refine ⟨.mul .binary64 (unpacked x) (unpacked y), ?_, rfl⟩
  obtain ⟨hx, rfl⟩ | ⟨m₁, e₁, h₁, hx, rfl⟩ := hx
  · obtain ⟨hy, rfl⟩ | ⟨m₂, e₂, h₂, hy, rfl⟩ := hy <;> rw [hx, hy, zero_mul] <;> exact rounds_zero _
  · obtain ⟨hy, rfl⟩ | ⟨m₂, e₂, h₂, hy, rfl⟩ := hy
    · rw [hx, hy, mul_zero]
      exact rounds_zero _
    · rw [hx, hy]
      refine rounds_mul ?_
      have hfits₁ := (bits_of_finite hx).1
      have hfits₂ := (bits_of_finite hy).1
      have hle₁ : m₁ ≤ m₁ * m₂ := Nat.le_mul_of_pos_right _ h₂
      have hle₂ : m₂ ≤ m₁ * m₂ := Nat.le_mul_of_pos_left _ h₁
      rcases hfits₁.full with rfl | hfull₁
      · rcases hfits₂.full with rfl | hfull₂
        · exact .inr (by omega)
        · exact .inl (le_log2 (by omega))
      · exact .inl (le_log2 (by omega))

theorem Denotes.div (hx : Denotes x s a) (hy : Denotes y s' b) (hb : 0 < b) :
    RoundsTo (s / s') (a / b) (x / y) := by
  refine ⟨.div .binary64 (unpacked x) (unpacked y), ?_, rfl⟩
  obtain ⟨hy, rfl⟩ | ⟨m₂, e₂, h₂, hy, rfl⟩ := hy
  · exact absurd hb (lt_irrefl _)
  · obtain ⟨hx, rfl⟩ | ⟨m₁, e₁, h₁, hx, rfl⟩ := hx
    · rw [hx, hy, zero_div]
      exact rounds_zero _
    · rw [hx, hy]
      exact rounds_div

/-- The opposite of a double has the other sign. -/
theorem Denotes.neg (h : Denotes x s a) : Denotes (-x) (-s) a := by
  obtain ⟨hx, rfl⟩ | ⟨m, e, hm, hx, rfl⟩ := h
  · refine .inl ⟨?_, rfl⟩
    show unpacked (ofUnpacked (unpacked x).neg) = _
    rw [hx]
    exact unpacked_zero _
  · refine .inr ⟨m, e, hm, ?_, rfl⟩
    show unpacked (ofUnpacked (unpacked x).neg) = _
    rw [hx]
    exact (bits_of_finite hx).1.unpacked

/-! ### Whole numbers and powers of ten -/

/-- A whole number of a word. -/
theorem roundsTo_toFloat (hn : n < 2 ^ 64) : RoundsTo .positive n n.toUInt64.toFloat := by
  refine ⟨UnpackedFloat.ofNat .binary64 n.toUInt64.toNat, ?_, rfl⟩
  rw [Nat.toUInt64_eq, UInt64.toNat_ofNat_of_lt' hn, UnpackedFloat.ofNat, UnpackedFloat.ofInt,
    UnpackedFloat.normalize]
  rcases Nat.eq_zero_or_pos n with rfl | hpos
  · exact rounds_zero _
  · have hgt : compare (n : ℤ) 0 = .gt := compare_gt_iff_gt.2 (by omega)
    have hround : Rounds .positive (n * 2 ^ (0 : ℤ)) _ := rounds_round hpos
    rw [zpow_zero, mul_one] at hround
    rw [hgt]
    exact hround

/-- The parts are those of the whole number. -/
def isNatural (n : ℕ) : UnpackedFloat → Bool
  | .finite .positive m e _ => m * 2 ^ e.toNat == n * 2 ^ (-e).toNat
  | _ => false

theorem denotes_of_isNatural (h : isNatural n (unpacked x) = true) : Denotes x .positive n := by
  cases hu : unpacked x with
  | finite s m e hm =>
    rw [hu] at h
    cases s with
    | negative => cases h
    | positive =>
      refine .inr ⟨m, e, hm, hu, ?_⟩
      have heq : (m * 2 ^ e.toNat : ℚ) = n * 2 ^ (-e).toNat := by
        exact_mod_cast (beq_iff_eq.1 h : m * 2 ^ e.toNat = n * 2 ^ (-e).toNat)
      have he : (2 : ℚ) ^ e = 2 ^ e.toNat / 2 ^ (-e).toNat := by
        rw [← zpow_natCast, ← zpow_natCast, ← zpow_sub₀ (by norm_num)]
        congr 1
        omega
      rw [he, mul_div_assoc', heq, mul_div_cancel_right₀ _ (by positivity)]
  | zero s => rw [hu] at h; cases h
  | infinity s => rw [hu] at h; cases h
  | notANumber => rw [hu] at h; cases h

/-- The powers of ten that are doubles. -/
theorem denotes_exactlyRepresentablePowersOfTen : ∀ i : Fin 23,
    isNatural (10 ^ i.val) (unpacked (Float.exactlyRepresentablePowersOfTen[i.val])) = true := by
  decide +kernel

/-- A whole number with zeros behind it is rounded once. -/
theorem roundsTo_ofScientific (n : ℕ) {k : ℕ} (hk : k ≤ 2048) :
    RoundsTo .positive (n * 10 ^ k) (Float.ofScientific n false k) := by
  by_cases hsmall : n < 2 ^ 53 ∧ k ≤ 22
  · have hk : k < 23 := Nat.lt_succ_of_le hsmall.2
    have hn : (n : ℚ) = n * 2 ^ (0 : ℤ) := by rw [zpow_zero, mul_one]
    have hone : Denotes n.toUInt64.toFloat .positive n :=
      (roundsTo_toFloat (by omega)).exact (natCast_lt_bound hsmall.1 (by decide)) hsmall.1
        (by decide) hn
    have hten : Denotes (Float.exactlyRepresentablePowersOfTen[k]) .positive (10 ^ k : ℕ) :=
      denotes_of_isNatural (denotes_exactlyRepresentablePowersOfTen ⟨k, hk⟩)
    rw [Float.ofScientific, dif_pos hsmall, ← Nat.cast_ofNat, ← Nat.cast_pow]
    exact hone.mul hten
  · rw [Float.ofScientific, dif_neg hsmall]
    refine ⟨UnpackedFloat.ofScientific .binary64 n k, ?_, rfl⟩
    rw [UnpackedFloat.ofScientific]
    split_ifs with hzero hgreat hleast hneg
    · rw [hzero, Nat.cast_zero, zero_mul]
      exact rounds_zero _
    · exact absurd hgreat (by show ¬2 ^ 11 < (k : ℤ); omega)
    · exact absurd hleast (by show ¬(k : ℤ) < -(2 ^ 11 + n.log2); omega)
    · have hvalue : (n * 10 ^ k : ℚ) =
          (n <<< 53 : ℕ) * 2 ^ (-53 : ℤ) * ((10 ^ (k : ℤ).toNat : ℕ) * 2 ^ (0 : ℤ)) := by
        rw [Nat.shiftLeft_eq, Int.toNat_natCast]
        push_cast
        norm_num
        ring
      rw [hvalue]
      refine rounds_mul (.inl (le_log2 ?_))
      have hpos : 0 < n := Nat.pos_of_ne_zero hzero
      show 2 ^ 52 ≤ n <<< 53 * 10 ^ (k : ℤ).toNat
      rw [Nat.shiftLeft_eq]
      have := Nat.pow_pos (n := (k : ℤ).toNat) (by decide : 0 < 10)
      nlinarith
    · exact absurd (Int.natCast_nonneg k) hneg

end Conveyor.Double
