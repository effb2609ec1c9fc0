import Conveyor.Decimal.Shortest
import Conveyor.Proofs.Double.Rounding

/-!
# The bits of doubles

A double is 64 bits, and arithmetic unpacks them into a sign, a mantissa and an exponent and packs
the result. `unpacked_eq` says what the bits unpack to, and `Fits.unpacked` that what is packed with
a mantissa and an exponent that fit is unpacked again. Two doubles are the same when they
unpack to the same (`eq_of_unpacked`), and the parts from which the shortest decimal is computed are
the unpacked ones (`ofFloat?_of_finite`).
-/

namespace Conveyor.Double

open Decimal Float.Model Float.Model.UnpackedFloat

variable {s : Sign} {m : ℕ} {e : ℤ} {x y : Float} {u : UnpackedFloat}

/-- What a double is made of. -/
def unpacked (x : Float) : UnpackedFloat :=
  x.toModel.unpack

/-- The double that is made of this, rounded as it must be. -/
def ofUnpacked (u : UnpackedFloat) : Float :=
  .ofModel (Float.Model.pack u)

/-- The bits of a double. -/
def packed (x : Float) : BitVec Format.binary64.numBits :=
  x.toBits.toBitVec

/-- The bits after the first twelve. -/
def fraction (x : Float) : ℕ := x.toBits.toNat % 2 ^ 52

/-- The eleven bits after the first. -/
def biased (x : Float) : ℕ := x.toBits.toNat / 2 ^ 52 % 2 ^ 11

/-- The first bit. -/
def sign (x : Float) : Sign := if x.toBits.toNat < 2 ^ 63 then .positive else .negative

theorem toNat_unpackMantissa (b : BitVec Format.binary64.numBits) :
    (unpackMantissa b).toNat = b.toNat % 2 ^ 52 := by
  show (b.extractLsb' 0 52).toNat = _
  rw [BitVec.extractLsb'_toNat, Nat.shiftRight_zero]

theorem toNat_unpackExponent (b : BitVec Format.binary64.numBits) :
    (unpackExponent b).toNat = b.toNat / 2 ^ 52 % 2 ^ 11 := by
  show (b.extractLsb' 52 11).toNat = _
  rw [BitVec.extractLsb'_toNat, Nat.shiftRight_eq_div_pow]

theorem ofBitVec_unpackSign (b : BitVec Format.binary64.numBits) :
    Sign.ofBitVec (unpackSign b) = if b.toNat < 2 ^ 63 then .positive else .negative := by
  have hbit : (unpackSign b).toNat = b.toNat / 2 ^ 63 % 2 := by
    show (b.extractLsb' 63 1).toNat = _
    rw [BitVec.extractLsb'_toNat, Nat.shiftRight_eq_div_pow]
  have hlt : b.toNat < 2 ^ 64 := b.isLt
  have hzero : unpackSign b = 0#1 ↔ b.toNat < 2 ^ 63 := by
    rw [← BitVec.toNat_inj, hbit]
    show b.toNat / 2 ^ 63 % 2 = 0 ↔ _
    omega
  rw [Sign.ofBitVec]
  exact if_congr hzero rfl rfl

theorem toNat_append_one (b : BitVec 52) : (1#1 ++ b).toNat = 2 ^ 52 + b.toNat := by
  rw [BitVec.toNat_append, ← Nat.shiftLeft_add_eq_or_of_lt b.isLt, Nat.shiftLeft_eq]
  simp

/-- What the bits say. -/
theorem unpacked_eq (x : Float) : unpacked x =
    if biased x = 2047 then if fraction x = 0 then .infinity (sign x) else .notANumber
    else if biased x = 0 then
      if h : fraction x = 0 then .zero (sign x)
      else .finite (sign x) (fraction x) (-1074) (Nat.pos_of_ne_zero h)
    else .finite (sign x) (2 ^ 52 + fraction x) (biased x - 1075)
      (Nat.add_pos_left (Nat.two_pow_pos 52) _) := by
  have hmantissa := toNat_unpackMantissa (packed x)
  have hexponent := toNat_unpackExponent (packed x)
  have hsign : Sign.ofBitVec (unpackSign (packed x)) = sign x := ofBitVec_unpackSign _
  have htop : unpackExponent (packed x) = -1#_ ↔ biased x = 2047 := by
    rw [← BitVec.toNat_inj, hexponent]
    exact Iff.rfl
  have hbottom : unpackExponent (packed x) = 0#_ ↔ biased x = 0 := by
    rw [← BitVec.toNat_inj, hexponent]
    exact Iff.rfl
  have hfraction : unpackMantissa (packed x) = 0#_ ↔ fraction x = 0 := by
    rw [← BitVec.toNat_inj, hmantissa]
    exact Iff.rfl
  show UnpackedFloat.unpack Format.binary64 (packed x) = _
  simp only [UnpackedFloat.unpack, htop, hbottom, hfraction, hsign]
  split_ifs with ht hf hb
  · rfl
  · rfl
  · rfl
  · congr 1
    rw [hexponent]
    show ((biased x : ℕ) : ℤ) - (1023 + 52) + 1 = _
    omega
  · congr 1
    · exact (toNat_append_one _).trans (congrArg _ hmantissa)
    · rw [hexponent]
      rfl

/-- The mantissa and the exponent of a double that is finite and not zero. -/
structure Fits (m : ℕ) (e : ℤ) : Prop where
  /-- It is not zero. -/
  pos : 0 < m
  /-- There are not more than 53 bits. -/
  lt : m < 2 ^ 53
  /-- There is a least exponent. -/
  least : -1074 ≤ e
  /-- There is a greatest exponent. -/
  greatest : e ≤ 971
  /-- With any exponent but the least there are 53 bits. -/
  full : e = -1074 ∨ 2 ^ 52 ≤ m

/-- The bits of a double that is finite and not zero. -/
theorem bits_of_finite {h : 0 < m} (hx : unpacked x = .finite s m e h) :
    Fits m e ∧ sign x = s ∧ fraction x = m % 2 ^ 52 ∧
      biased x = if 2 ^ 52 ≤ m then (e + 1075).toNat else 0 := by
  have hfraction : fraction x < 2 ^ 52 := Nat.mod_lt _ (by positivity)
  have hbiased : biased x < 2 ^ 11 := Nat.mod_lt _ (by positivity)
  rw [unpacked_eq] at hx
  split_ifs at hx with htop hinf hbottom hzero
  · obtain ⟨hs, rfl, rfl⟩ := UnpackedFloat.finite.inj hx
    have hfits : Fits (fraction x) (-1074) := ⟨h, by omega, le_rfl, by omega, .inl rfl⟩
    rw [if_neg (by omega)]
    exact ⟨hfits, hs, by omega, hbottom⟩
  · obtain ⟨hs, rfl, rfl⟩ := UnpackedFloat.finite.inj hx
    have hfits : Fits (2 ^ 52 + fraction x) (biased x - 1075) :=
      ⟨h, by omega, by omega, by omega, .inr (by omega)⟩
    rw [if_pos (by omega)]
    exact ⟨hfits, hs, by omega, by omega⟩

theorem bits_of_zero (hx : unpacked x = .zero s) : sign x = s ∧ fraction x = 0 ∧ biased x = 0 := by
  rw [unpacked_eq] at hx
  split_ifs at hx with htop hinf hbottom hzero
  exact ⟨UnpackedFloat.zero.inj hx, hzero, hbottom⟩

/-- A double is known by what it is made of. -/
theorem eq_of_unpacked (h : unpacked x = unpacked y) : x = y := by
  have hbits := (unpack_inj_of_valid x.toModel.valid y.toModel.valid).1 h
  exact Float.toBits_inj.1 (UInt64.toBitVec_inj.1 hbits)

/-! ### Parts -/

theorem ofFloat?_of_finite {h : 0 < m} (hx : unpacked x = .finite s m e h) :
    Binary.ofFloat? x = some ⟨m, e, m = 2 ^ 52 && -1074 < e⟩ := by
  obtain ⟨hfits, -, hf, hb⟩ := bits_of_finite hx
  have hlt := hfits.lt
  have hpos := hfits.pos
  have hge := hfits.greatest
  have hle := hfits.least
  show (if biased x = 2047 then none else if biased x = 0 then
    if fraction x = 0 then none else some (Binary.mk (fraction x) (-1074) false)
    else some ⟨2 ^ 52 + fraction x, biased x - 1075, fraction x = 0 && 1 < biased x⟩) = _
  rw [hf, hb]
  by_cases hfull : 2 ^ 52 ≤ m
  · rw [if_pos hfull, if_neg (by omega), if_neg (by omega)]
    congr 2
    · omega
    · omega
    · congr 1 <;> rw [decide_eq_decide] <;> omega
  · rw [if_neg hfull, if_neg (by decide), if_pos rfl, if_neg (by omega)]
    congr 2
    · omega
    · exact (hfits.full.resolve_right hfull).symm
    · rw [decide_eq_false (by omega : ¬m = 2 ^ 52), Bool.false_and]

theorem ofFloat?_of_zero (hx : unpacked x = .zero s) : Binary.ofFloat? x = none := by
  obtain ⟨-, hf, hb⟩ := bits_of_zero hx
  show (if biased x = 2047 then none else if biased x = 0 then
    if fraction x = 0 then none else _ else _) = _
  rw [hb, hf]
  rfl

theorem ofFloat?_of_not_isFinite (h : x.isFinite = false) : Binary.ofFloat? x = none := by
  have hinfinite : (unpacked x).isFinite = false := h
  by_cases htop : biased x = 2047
  · exact if_pos htop
  · rw [unpacked_eq, if_neg htop] at hinfinite
    split_ifs at hinfinite <;> cases hinfinite

/-! ### Packing -/

/-- The first bit as a number. -/
def signBit : Sign → ℕ
  | .negative => 1
  | .positive => 0

theorem toNat_packComponents (s : Sign) (b : BitVec 11) (f : BitVec 52) :
    (packComponents Format.binary64 s b f).toNat =
      signBit s * 2 ^ 63 + b.toNat * 2 ^ 52 + f.toNat := by
  show (s.toBitVec ++ b ++ f).toNat = _
  rw [BitVec.toNat_append, ← Nat.shiftLeft_add_eq_or_of_lt f.isLt, Nat.shiftLeft_eq,
    BitVec.toNat_append, ← Nat.shiftLeft_add_eq_or_of_lt b.isLt, Nat.shiftLeft_eq]
  have hs : s.toBitVec.toNat = signBit s := by cases s <;> rfl
  rw [hs]
  omega

/-- The bits of the double that is made of these parts. -/
theorem bits_of_pack {u : UnpackedFloat} {b : BitVec 11} {f : BitVec 52}
    (h : UnpackedFloat.pack .binary64 u = packComponents .binary64 s b f) :
    sign (ofUnpacked u) = s ∧ biased (ofUnpacked u) = b.toNat ∧
      fraction (ofUnpacked u) = f.toNat := by
  have hbits : (ofUnpacked u).toBits.toNat = signBit s * 2 ^ 63 + b.toNat * 2 ^ 52 + f.toNat := by
    rw [← toNat_packComponents, ← h]
    rfl
  have hb : b.toNat < 2 ^ 11 := b.isLt
  have hf : f.toNat < 2 ^ 52 := f.isLt
  refine ⟨?_, ?_, ?_⟩
  · rw [sign, hbits]
    cases s
    · exact if_neg (by rw [signBit]; omega)
    · exact if_pos (by rw [signBit]; omega)
  · rw [biased, hbits]
    cases s <;> rw [signBit] <;> omega
  · rw [fraction, hbits]
    cases s <;> rw [signBit] <;> omega

theorem log2_eq (hlt : m < 2 ^ 53) (hle : 2 ^ 52 ≤ m) : m.log2 = 52 :=
  (Nat.log2_eq_iff (by omega)).2 ⟨hle, hlt⟩

/-- A double that is made of such parts is made of them. -/
theorem Fits.unpacked (h : Fits m e) :
    unpacked (ofUnpacked (.finite s m e h.pos)) = .finite s m e h.pos := by
  have hle := h.least
  have hge := h.greatest
  have hlt := h.lt
  have hbound : ¬2 ^ Format.binary64.exponentBits ≤
      (e + Format.binary64.exponentBias + Format.binary64.mantissaBitsWithoutImplicit).toNat + 1 := by
    show ¬2 ^ 11 ≤ (e + 1023 + 52).toNat + 1
    omega
  by_cases hfull : 2 ^ 52 ≤ m
  · have hlog : m.log2 + 1 = Format.binary64.mantissaBits := congrArg (· + 1) (log2_eq hlt hfull)
    obtain ⟨hsign, hbiased, hfraction⟩ := bits_of_pack (u := .finite s m e h.pos)
      (b := .ofNat 11 (e + 1075).toNat) (f := .ofNat 52 m) (by
        rw [UnpackedFloat.pack, if_neg hbound, if_pos hlog]
        congr 2
        show (e + 1023 + 52).toNat = _
        omega)
    rw [BitVec.toNat_ofNat] at hbiased hfraction
    rw [unpacked_eq, hsign, hbiased, hfraction, if_neg (by omega), if_neg (by omega)]
    congr 1 <;> omega
  · have hlog : ¬m.log2 + 1 = Format.binary64.mantissaBits := by
      show ¬m.log2 + 1 = 53
      have := (Nat.log2_lt h.pos.ne').2 (Nat.lt_of_not_le hfull)
      omega
    obtain ⟨hsign, hbiased, hfraction⟩ := bits_of_pack (u := .finite s m e h.pos)
      (b := 0#11) (f := .ofNat 52 m) (by rw [UnpackedFloat.pack, if_neg hbound, if_neg hlog])
    have hmod : (BitVec.ofNat 52 m).toNat = m := by
      rw [BitVec.toNat_ofNat, Nat.mod_eq_of_lt (Nat.lt_of_not_le hfull)]
    rw [BitVec.toNat_zero] at hbiased
    rw [unpacked_eq, hsign, hbiased, hfraction, hmod, if_neg (by decide), if_pos rfl,
      dif_neg h.pos.ne']
    congr 1
    exact (h.full.resolve_right hfull).symm

/-- With an exponent that is too great the double is infinite. -/
theorem unpacked_of_lt (hpos : 0 < m) (he : 971 < e) :
    unpacked (ofUnpacked (.finite s m e hpos)) = .infinity s := by
  have hbound : 2 ^ Format.binary64.exponentBits ≤
      (e + Format.binary64.exponentBias + Format.binary64.mantissaBitsWithoutImplicit).toNat + 1 := by
    show 2 ^ 11 ≤ (e + 1023 + 52).toNat + 1
    omega
  obtain ⟨hsign, hbiased, hfraction⟩ := bits_of_pack (u := .finite s m e hpos)
    (b := -1#11) (f := 0#52) (by rw [UnpackedFloat.pack, if_pos hbound]; rfl)
  rw [unpacked_eq, hsign, hbiased, hfraction]
  rfl

theorem unpacked_zero (s : Sign) : unpacked (ofUnpacked (.zero s)) = .zero s := by
  cases s <;> rfl

end Conveyor.Double
