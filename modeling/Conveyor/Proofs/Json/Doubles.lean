import Conveyor.Proofs.Json.Numerals

/-!
# Written doubles are read back

A double is written by its shortest decimal in one of four layouts. Each layout is a number with
parts (`parts`), and all four denote the same significand and power of ten (`parts_magnitude?`), so
that the layouts matter no further.

The main statement is `Value.readsAs_float`: what is read where a finite double was written is the
same double if its decimal is short, and one near to it in any case. Not every double is read back as
itself, for the reader rounds more than once.
-/

namespace Conveyor.Json

open Decimal Double Float.Model.UnpackedFloat

variable {n m : ℕ} {e : ℤ} {a : ℚ} {c : Scientific} {t : NumberText} {s : Sign} {x y : Float}

/-! ### What a number denotes -/

/-- The power of ten with this exponent. -/
def powerOf (i : ℤ) : Power :=
  ⟨decide (i < 0), digits i.natAbs⟩

namespace NumberText

/-- All digits are gathered as long as their number fits. -/
theorem scaled_eq (h : value (t.whole ++ t.fraction.getD []) ≤ maxSignificand) :
    t.scaled = (value (t.whole ++ t.fraction.getD []), -((t.fraction.getD []).length : ℤ)) := by
  rw [value, Nat.ofDigitChars_append] at h ⊢
  have hwhole := gather_eq ((le_ofDigitChars _ _).trans h)
  rw [scaled, hwhole]
  cases hf : t.fraction with
  | none => rfl
  | some ds =>
    rw [hf] at h
    rw [Option.getD_some] at h ⊢
    dsimp only
    rw [gather_eq h]
    simp

/-- Without a power of ten the digits say everything. -/
theorem magnitude?_of_power_eq_none (hpower : t.power = none)
    (h : value (t.whole ++ t.fraction.getD []) ≤ maxSignificand) :
    t.magnitude? = scale? (value (t.whole ++ t.fraction.getD []))
      (-((t.fraction.getD []).length : ℤ)) := by
  rw [magnitude?, scaled_eq h, hpower]

/-- The digits of a written exponent are not shortened. -/
theorem value_take_dropWhile_digits (h : n < 10 ^ 11) :
    value (((digits n).dropWhile (· == '0')).take 11) = n := by
  rcases Nat.eq_zero_or_pos n with rfl | hpos
  · rfl
  · have hdrop : (digits n).dropWhile (· == '0') = digits n := by
      obtain ⟨d, ds, hds, hd⟩ := exists_digits_eq_cons hpos
      rw [hds, List.dropWhile_cons_of_neg (by simpa using hd)]
    have hlen : (digits n).length ≤ 11 := (Nat.length_toDigits_le_iff (by decide) (by decide)).2 h
    rw [hdrop, List.take_of_length_le hlen, value_digits]

/-- A power of ten counts with its sign. -/
theorem magnitude?_of_power_eq_some {i : ℤ} (hpower : t.power = some (powerOf i))
    (hi : i.natAbs ≤ maxExponent) (h : value (t.whole ++ t.fraction.getD []) ≤ maxSignificand) :
    t.magnitude? = scale? (value (t.whole ++ t.fraction.getD []))
      (-((t.fraction.getD []).length : ℤ) + i) := by
  have hexponent : value (((digits i.natAbs).dropWhile (· == '0')).take 11) = i.natAbs :=
    value_take_dropWhile_digits (hi.trans_lt (by decide))
  rw [magnitude?, scaled_eq h, hpower]
  dsimp only [powerOf]
  rw [hexponent, if_neg (Nat.not_lt.2 hi)]
  congr 2
  rcases lt_or_ge i 0 with hneg | hpos
  · rw [if_pos (decide_eq_true hneg)]
    omega
  · rw [if_neg (by simpa using hpos)]
    omega

end NumberText

/-! ### How a double is written -/

/-- The parts of the text of a decimal. -/
def parts (negated : Bool) (c : Scientific) : NumberText :=
  let ds := digits c.digits
  let point : ℤ := ds.length + c.exponent
  if 0 ≤ c.exponent ∧ point ≤ 16 then
    ⟨negated, ds ++ List.replicate c.exponent.toNat '0', some ['0'], none⟩
  else if 0 < point ∧ point ≤ 16 then
    ⟨negated, ds.take point.toNat, some (ds.drop point.toNat), none⟩
  else if -5 < point ∧ point ≤ 0 then
    ⟨negated, ['0'], some (List.replicate (-point).toNat '0' ++ ds), none⟩
  else
    ⟨negated, ds.take 1, if ds.length = 1 then none else some (ds.drop 1),
      some (powerOf (point - 1))⟩

theorem parts_negated (negated : Bool) (c : Scientific) : (parts negated c).negated = negated := by
  rw [parts]
  split_ifs <;> rfl

theorem powerOf_write (i : ℤ) : 'e' :: (powerOf i).write =
    (if i < 0 then ['e', '-'] else ['e']) ++ digits i.natAbs := by
  rw [Power.write, powerOf]
  split_ifs with h h' h'
  · rfl
  · exact absurd (of_decide_eq_true h) h'
  · exact absurd (decide_eq_true h') h
  · rfl

theorem parts_write (negated : Bool) (c : Scientific) :
    (parts negated c).write = writeScientific c := by
  obtain ⟨d, ds, hds⟩ := List.exists_cons_of_length_pos
    (Nat.length_toDigits_pos (n := c.digits) (b := 10))
  rw [parts, writeScientific]
  simp only [Bool.and_eq_true, decide_eq_true_eq, ← powerOf_write]
  rw [show digits c.digits = d :: ds from hds]
  split_ifs with hwhole hpoint hsmall hone
  · simp [NumberText.write, NumberText.writeFraction, NumberText.writePower]
  · simp [NumberText.write, NumberText.writeFraction, NumberText.writePower]
  · simp [NumberText.write, NumberText.writeFraction, NumberText.writePower]
  · obtain rfl := List.eq_nil_of_length_eq_zero (Nat.succ.inj hone)
    rfl
  · cases ds with
    | nil => exact absurd rfl hone
    | cons d' ds => simp [NumberText.write, NumberText.writeFraction, NumberText.writePower]

theorem parts_isSound (negated : Bool) (hpos : 0 < c.digits) : (parts negated c).IsSound := by
  have hdigits : ∀ d ∈ digits c.digits, d.isDigit = true := fun _ ↦ isDigit_of_mem_digits
  have hzeros (n : ℕ) : ∀ d ∈ List.replicate n '0', d.isDigit = true := fun d hd ↦
    (List.mem_replicate.1 hd).2 ▸ rfl
  have hpower (i : ℤ) : ∀ p ∈ some (powerOf i),
      p.digits ≠ [] ∧ ∀ d ∈ p.digits, d.isDigit = true := by
    rintro _ ⟨rfl⟩
    exact ⟨List.ne_nil_of_length_pos Nat.length_toDigits_pos, fun _ ↦ isDigit_of_mem_digits⟩
  obtain ⟨d, ds, hds, hd⟩ := exists_digits_eq_cons hpos
  rw [parts, hds]
  rw [hds] at hdigits
  split_ifs with hwhole hpoint hsmall hone
  · exact
      { whole := ⟨isWhole_cons hd _, List.forall_mem_append.2 ⟨hdigits, hzeros _⟩⟩
        fraction := by
          rintro _ ⟨rfl⟩
          exact ⟨List.cons_ne_nil _ _, hzeros 1⟩
        power := nofun }
  · obtain ⟨k, hk⟩ : ∃ k, (((d :: ds).length : ℤ) + c.exponent).toNat = k + 1 :=
      ⟨(((d :: ds).length : ℤ) + c.exponent).toNat - 1, by omega⟩
    rw [hk]
    exact
      { whole := ⟨isWhole_cons hd _, fun d hd ↦ hdigits d (List.mem_of_mem_take hd)⟩
        fraction := by
          rintro _ ⟨rfl⟩
          refine ⟨?_, fun d hd ↦ hdigits d (List.mem_of_mem_drop hd)⟩
          rw [Ne, List.drop_eq_nil_iff]
          omega
        power := nofun }
  · exact
      { whole := ⟨rfl, hzeros 1⟩
        fraction := by
          rintro _ ⟨rfl⟩
          exact ⟨by simp, List.forall_mem_append.2 ⟨hzeros _, hdigits⟩⟩
        power := nofun }
  · exact
      { whole := ⟨rfl, fun d hd ↦ hdigits d (List.mem_of_mem_take hd)⟩
        fraction := nofun
        power := hpower _ }
  · exact
      { whole := ⟨rfl, fun d hd ↦ hdigits d (List.mem_of_mem_take hd)⟩
        fraction := by
          rintro _ ⟨rfl⟩
          refine ⟨?_, fun d hd ↦ hdigits d (List.mem_of_mem_drop hd)⟩
          rw [Ne, List.drop_eq_nil_iff]
          rw [List.length_cons] at hone ⊢
          omega
        power := hpower _ }

theorem parts_magnitude? (negated : Bool) (hfit : (shown c).1 ≤ maxSignificand)
    (hlen : (digits c.digits).length ≤ 20) (hlow : -400 < c.exponent) (hhigh : c.exponent ≤ 308) :
    (parts negated c).magnitude? = scale? (shown c).1 (shown c).2 := by
  have hvalue : value (digits c.digits) = c.digits := value_digits _
  have hpos : 0 < (digits c.digits).length := Nat.length_toDigits_pos
  rw [shown] at hfit ⊢
  rw [parts]
  generalize digits c.digits = ds at hvalue hpos hfit hlen ⊢
  split_ifs at hfit ⊢ with hwhole hpoint hsmall hone
  · have hall : value (ds ++ List.replicate c.exponent.toNat '0' ++ ['0']) =
        c.digits * 10 ^ (c.exponent.toNat + 1) := by
      rw [List.append_assoc, ← List.replicate_succ', value, Nat.ofDigitChars_append,
        Nat.ofDigitChars_replicate_zero, Nat.mul_comm]
      exact congrArg (· * _) hvalue
    rw [NumberText.magnitude?_of_power_eq_none rfl (hall.trans_le hfit)]
    exact congrArg₂ _ hall rfl
  · have hall : value (ds.take (ds.length + c.exponent).toNat ++
        ds.drop (ds.length + c.exponent).toNat) = c.digits := by
      rw [List.take_append_drop]
      exact hvalue
    rw [NumberText.magnitude?_of_power_eq_none rfl (hall.trans_le hfit)]
    refine congrArg₂ _ hall ?_
    rw [Option.getD_some, List.length_drop]
    omega
  · have hall : value (['0'] ++ (List.replicate (-(ds.length + c.exponent)).toNat '0' ++ ds)) =
        c.digits := by
      rw [← List.append_assoc, ← List.replicate_one, List.replicate_append_replicate, value,
        Nat.ofDigitChars_append, Nat.ofDigitChars_replicate_zero, Nat.mul_zero]
      exact hvalue
    rw [NumberText.magnitude?_of_power_eq_none rfl (hall.trans_le hfit)]
    refine congrArg₂ _ hall ?_
    rw [Option.getD_some, List.length_append, List.length_replicate]
    omega
  · have hall : value (ds.take 1 ++ []) = c.digits := by
      rw [List.append_nil, List.take_of_length_le hone.le]
      exact hvalue
    have hexp : (ds.length + c.exponent - 1).natAbs ≤ maxExponent := by
      rw [maxExponent, Nat.pow_eq]
      omega
    rw [NumberText.magnitude?_of_power_eq_some rfl hexp (hall.trans_le hfit)]
    refine congrArg₂ _ hall ?_
    show -(0 : ℤ) + (ds.length + c.exponent - 1) = _
    omega
  · have hall : value (ds.take 1 ++ ds.drop 1) = c.digits := by
      rw [List.take_append_drop]
      exact hvalue
    have hexp : (ds.length + c.exponent - 1).natAbs ≤ maxExponent := by
      rw [maxExponent, Nat.pow_eq]
      omega
    rw [NumberText.magnitude?_of_power_eq_some rfl hexp (hall.trans_le hfit)]
    refine congrArg₂ _ hall ?_
    rw [Option.getD_some, List.length_drop]
    omega

/-- The text of a decimal never is that of a whole number. -/
theorem parts_value? (negated : Bool) (c : Scientific) :
    (parts negated c).value? = (parts negated c).real? := by
  rw [parts]
  split_ifs <;> rfl

/-! ### What is read back for a double -/

/-- There is a minus before numbers of this sign. -/
def isMinus : Sign → Bool
  | .negative => true
  | .positive => false

theorem denotes_minus (h : Denotes y .positive a) :
    Denotes (if isMinus s then -y else y) s a := by
  cases s with
  | positive => exact h
  | negative => exact h.neg

theorem unpacked_minus {hm : 0 < m} (h : unpacked y = .finite .positive m e hm) :
    unpacked (if isMinus s then -y else y) = .finite s m e hm := by
  cases s with
  | positive => exact h
  | negative =>
    show unpacked (ofUnpacked (unpacked y).neg) = _
    rw [h]
    exact (bits_of_finite h).1.unpacked

/-- The shortest decimal of the double is one of those that are read without rounding twice. -/
def IsShort (x : Float) : Prop :=
  ∀ b, Binary.ofFloat? x = some b →
    (shown b.shortest).1 < 2 ^ 53 ∧ (shown b.shortest).2.natAbs ≤ 22

/-- What is read where a finite double was written: the same one if its decimal is short, and
otherwise one that is near to it. -/
structure IsReadBack (x y : Float) : Prop where
  /-- It is finite. -/
  isFinite : y.isFinite = true
  /-- It is near. -/
  near : |number y - number x| ≤ |number x| / 2 ^ 48 + 2 ^ (-1073 : ℤ)
  /-- It is the same. -/
  eq_of_isShort : IsShort x → y = x

theorem write_sign (x : Float) :
    (if x.toBits.toNat < Nat.pow 2 63 then [] else ['-']) =
      if isMinus (sign x) then ['-'] else [] := by
  rw [sign, Nat.pow_eq]
  by_cases h : x.toBits.toNat < 2 ^ 63
  · rw [if_pos h, if_pos h]
    rfl
  · rw [if_neg h, if_neg h]
    rfl

/-- A double that is not zero is read back by its shortest decimal. -/
theorem Value.readsAs_float_of_finite {hm : 0 < m} (hx : unpacked x = .finite s m e hm) :
    ∃ y, (Value.float x).ReadsAs (.number (some (.real y))) ∧ IsReadBack x y := by
  obtain ⟨hfits, hsign, -, -⟩ := bits_of_finite hx
  have hparts := ofFloat?_of_finite hx
  generalize hb : Binary.mk m e (m = 2 ^ 52 && -1074 < e) = b at hparts
  have hdouble : b.IsDouble := by
    subst hb
    exact { hfits with atPower := rfl }
  have hwrite : (Value.float x).write =
      (parts (isMinus s) b.shortest).sign ++ (parts (isMinus s) b.shortest).write := by
    rw [Value.write, writeFloat, hparts, NumberText.sign, parts_negated, parts_write, ← hsign]
    exact congrArg (· ++ _) (write_sign x)
  have hfit : (shown b.shortest).1 ≤ maxSignificand :=
    (shown_lt hdouble).le.trans (by decide)
  have hlen : (digits b.shortest.digits).length ≤ 20 :=
    (Nat.length_toDigits_le_iff (by decide) (by decide)).2 (hdouble.digits_lt.trans (by decide))
  have hmagnitude := parts_magnitude? (isMinus s) hfit hlen hdouble.exponent_bounds.1
    hdouble.exponent_bounds.2
  obtain ⟨y, a, hy, ha, herror⟩ := exists_scale?_shown hdouble
  have hreads := readsAs_number (parts_isSound (isMinus s) hdouble.digits_pos) hwrite
  rw [parts_value?, NumberText.real?, hmagnitude, hy, parts_negated] at hreads
  refine ⟨_, hreads, (denotes_minus ha).isFinite, ?_, fun hshort ↦ ?_⟩
  · have hnumber : number x = signed s b.size := by
      subst hb
      exact Denotes.number (.inr ⟨m, e, hm, hx, rfl⟩)
    have hsize : 0 ≤ b.size := by
      rw [Binary.size]
      positivity
    rwa [(denotes_minus ha).number, hnumber, signed_sub, abs_signed, abs_signed, abs_of_nonneg hsize]
  · obtain ⟨hdigits, hexponent⟩ := hshort b hparts
    obtain ⟨y', hy', hunpacked⟩ := exists_scale?_of_short hdouble hdigits hexponent
    obtain rfl := Option.some.inj (hy.symm.trans hy')
    subst hb
    have hsame := unpacked_minus (s := s) hunpacked
    exact eq_of_unpacked (hsame.trans hx.symm)

/-- The parts of the text of a zero. -/
def zeroParts (s : Sign) : NumberText :=
  ⟨isMinus s, ['0'], some ['0'], none⟩

theorem zeroParts_isSound (s : Sign) : (zeroParts s).IsSound where
  whole := ⟨rfl, fun d hd ↦ List.mem_singleton.1 hd ▸ rfl⟩
  fraction := by
    rintro _ ⟨rfl⟩
    exact ⟨List.cons_ne_nil _ _, fun d hd ↦ List.mem_singleton.1 hd ▸ rfl⟩
  power := nofun

/-- A zero is read back with its sign. -/
theorem Value.readsAs_float_of_zero (hx : unpacked x = .zero s) :
    ∃ y, (Value.float x).ReadsAs (.number (some (.real y))) ∧ IsReadBack x y := by
  obtain ⟨hsign, -, -⟩ := bits_of_zero hx
  have hzero : (x == 0) = true := by
    show (unpacked x).beq (unpacked 0) = true
    rw [hx]
    cases s <;> rfl
  have hwrite : (Value.float x).write = (zeroParts s).sign ++ (zeroParts s).write := by
    rw [Value.write, writeFloat, ofFloat?_of_zero hx]
    dsimp only
    rw [if_pos hzero, write_sign, hsign]
    rfl
  have hvalue : (zeroParts s).value? =
      some (.real (if isMinus s then -(Float.ofNat 0 / tenTo 1) else Float.ofNat 0 / tenTo 1)) := by
    show (zeroParts s).real? = _
    have hscale : scale? 0 (-1) = some (Float.ofNat 0 / tenTo 1) := by
      rw [scale?, if_neg (by decide), scaleDown, if_pos (by decide)]
      rfl
    have hmagnitude : (zeroParts s).magnitude? = some (Float.ofNat 0 / tenTo 1) :=
      (NumberText.magnitude?_of_power_eq_none rfl (Nat.zero_le _)).trans hscale
    rw [NumberText.real?, hmagnitude]
    rfl
  have hreads := readsAs_number (zeroParts_isSound s) hwrite
  rw [hvalue] at hreads
  have heq : (if isMinus s then -(Float.ofNat 0 / tenTo 1) else Float.ofNat 0 / tenTo 1) = x := by
    have hread : unpacked (if isMinus s then -(Float.ofNat 0 / tenTo 1) else Float.ofNat 0 / tenTo 1) =
        .zero s := by
      cases s <;> rfl
    exact eq_of_unpacked (hread.trans hx.symm)
  rw [heq] at hreads
  refine ⟨x, hreads, Denotes.isFinite (.inl ⟨hx, rfl⟩), ?_, fun _ ↦ rfl⟩
  rw [sub_self, abs_zero]
  positivity

/-- What is no finite number is written as `null`. -/
theorem Value.readsAs_float_of_not_isFinite (h : x.isFinite = false) :
    (Value.float x).ReadsAs .null := by
  have hwrite : (Value.float x).write = Value.null.write := by
    have hnonzero : (x == 0) = false := by
      show (unpacked x).beq (unpacked 0) = false
      have hzero : unpacked 0 = .zero .positive := rfl
      rw [hzero]
      have hinfinite : (unpacked x).isFinite = false := h
      cases hx : unpacked x with
      | finite s m e hm => rw [hx] at hinfinite; cases hinfinite
      | zero s => rw [hx] at hinfinite; cases hinfinite
      | infinity s => cases s <;> rfl
      | notANumber => rfl
    show writeFloat x = _
    rw [writeFloat, ofFloat?_of_not_isFinite h]
    dsimp only
    rw [if_neg (Bool.eq_false_iff.1 hnonzero)]
    rfl
  intro stack rest hrest
  rw [hwrite]
  exact readsAs_null stack rest hrest

/-- **A finite double is read back, as itself or as one near to it.** -/
theorem Value.readsAs_float (h : x.isFinite = true) :
    ∃ y, (Value.float x).ReadsAs (.number (some (.real y))) ∧ IsReadBack x y := by
  have hfinite : (unpacked x).isFinite = true := h
  cases hx : unpacked x with
  | finite s m e hm => exact readsAs_float_of_finite hx
  | zero s => exact readsAs_float_of_zero hx
  | infinity s => rw [hx] at hfinite; cases hfinite
  | notANumber => rw [hx] at hfinite; cases hfinite

end Conveyor.Json
