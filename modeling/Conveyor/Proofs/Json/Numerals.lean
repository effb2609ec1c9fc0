import Conveyor.Proofs.Decimal.Digits
import Conveyor.Proofs.Json.Scaling
import Conveyor.Proofs.Json.Written

/-!
# Written numbers are read back

A text that is put together from the parts of a number is taken apart into these parts again, if they
are such as numbers have (`NumberText.IsSound`) and a value may end behind it
(`nextLexeme?_number`). What is left is what the parts denote. Here this is said of whole numbers
(`Value.readsAs_natural`), which are exact as long as they fit a word.
-/

namespace Conveyor.Json

open Decimal

variable {n : ℕ} {ds : List Char} {t : NumberText} {rest : List Symbol}

/-! ### Digits -/

/-- A character other than a digit follows, if any. -/
theorem Stops.not_digit (h : Stops rest) {c : Char} (hc : rest.head? = some (.char c)) :
    c.isDigit = false ∧ c ≠ '.' ∧ c ≠ 'e' ∧ c ≠ 'E' := by
  rcases h _ hc with h | h | h <;> obtain rfl := Symbol.char.inj h <;> decide

theorem spanDigits_append (hds : ∀ d ∈ ds, d.isDigit = true)
    (hrest : ∀ c, rest.head? = some (.char c) → c.isDigit = false) (done : List Char) :
    spanDigits done (ds.map .char ++ rest) = (done.reverse ++ ds, rest) := by
  induction ds generalizing done with
  | nil =>
    rw [List.map_nil, List.nil_append, List.append_nil]
    cases rest with
    | nil => rfl
    | cons x rest =>
      cases x with
      | stray => rfl
      | char c => rw [spanDigits, hrest c rfl]; rfl
  | cons d ds ih =>
    obtain ⟨hd, hds⟩ := List.forall_mem_cons.1 hds
    rw [List.map_cons, List.cons_append, spanDigits, hd, if_pos rfl, ih hds, List.reverse_cons,
      List.append_assoc, List.singleton_append]

/-- Digits are gathered as long as their number fits. -/
theorem gather_eq (h : Nat.ofDigitChars 10 ds n ≤ maxSignificand) :
    gather n ds = (Nat.ofDigitChars 10 ds n, []) := by
  induction ds generalizing n with
  | nil => rfl
  | cons d ds ih =>
    rw [Nat.ofDigitChars_cons, Nat.mul_comm 10 n] at h ⊢
    have hle := (le_ofDigitChars _ ds).trans h
    rw [gather, if_pos hle, ih h]

/-- If it does not fit, some are left. -/
theorem gather_snd_ne_nil (hn : n ≤ maxSignificand)
    (h : maxSignificand < Nat.ofDigitChars 10 ds n) : (gather n ds).2 ≠ [] := by
  induction ds generalizing n with
  | nil => exact absurd hn (Nat.not_le.2 h)
  | cons d ds ih =>
    rw [Nat.ofDigitChars_cons, Nat.mul_comm 10 n] at h
    rw [gather]
    split
    case isTrue hle => exact ih hle h
    case isFalse => exact List.cons_ne_nil d ds

theorem ne_of_isDigit {d c : Char} (hd : d.isDigit = true) (hc : c.isDigit = false) : d ≠ c := by
  rintro rfl
  rw [hc] at hd
  cases hd

theorem isGap_of_isDigit {d : Char} (hd : d.isDigit = true) : isGap (.char d) = false := by
  have hne {c : Char} (hc : c.isDigit = false) := ne_of_isDigit hd hc
  simp only [isGap, decide_eq_false (hne (c := ' ') rfl), decide_eq_false (hne (c := '\t') rfl),
    decide_eq_false (hne (c := '\n') rfl), decide_eq_false (hne (c := '\r') rfl), Bool.or_self]

/-- A number that is not negative begins with a digit. -/
theorem lexemeFrom_of_isDigit {d : Char} (hd : d.isDigit = true) (others : List Symbol) :
    lexemeFrom d others = (scanNumber false (.char d :: others)).elim (.broken, others)
      fun (t, rest) ↦ (.number t.value?, rest) := by
  have hne {c : Char} (hc : c.isDigit = false) := ne_of_isDigit hd hc
  unfold lexemeFrom
  rw [if_neg (hne rfl), if_neg (hne rfl), if_neg (hne rfl), if_neg (hne rfl), if_neg (hne rfl),
    if_neg (hne rfl), if_neg (hne rfl), if_neg (hne rfl), if_pos hd]
  cases scanNumber false (.char d :: others) <;> rfl

/-- A negative number begins with a minus. -/
theorem lexemeFrom_minus (others : List Symbol) :
    lexemeFrom '-' others = (scanNumber true others).elim (.broken, others)
      fun (t, rest) ↦ (.number t.value?, rest) := by
  unfold lexemeFrom
  cases scanNumber true others <;> rfl

/-! ### Numbers in a text -/

/-- The sign, if it is a minus, and the digits. -/
def Power.write (p : Power) : List Char :=
  (if p.negated then ['-'] else []) ++ p.digits

namespace NumberText

/-- The minus in front, if there is one. -/
def sign (t : NumberText) : List Char :=
  if t.negated then ['-'] else []

/-- The point and the digits after it, if there are any. -/
def writeFraction (t : NumberText) : List Char :=
  t.fraction.elim [] fun ds ↦ '.' :: ds

/-- The power of ten, if there is one. -/
def writePower (t : NumberText) : List Char :=
  t.power.elim [] fun p ↦ 'e' :: p.write

/-- The number as it is written, without the minus. -/
def write (t : NumberText) : List Char :=
  t.whole ++ (t.writeFraction ++ t.writePower)

/-- The parts are such as numbers have. -/
structure IsSound (t : NumberText) : Prop where
  /-- There is a digit before the point, and no zero in front of others. -/
  whole : isWhole t.whole = true ∧ ∀ d ∈ t.whole, d.isDigit = true
  /-- There is a digit after the point. -/
  fraction : ∀ ds ∈ t.fraction, ds ≠ [] ∧ ∀ d ∈ ds, d.isDigit = true
  /-- There is a digit in the power. -/
  power : ∀ p ∈ t.power, p.digits ≠ [] ∧ ∀ d ∈ p.digits, d.isDigit = true

end NumberText

/-- What follows on the fraction begins neither with a digit nor with a point. -/
theorem Stops.head_writePower (hrest : Stops rest) (t : NumberText) {c : Char}
    (hc : (t.writePower.map Symbol.char ++ rest).head? = some (.char c)) :
    c.isDigit = false ∧ c ≠ '.' := by
  rw [NumberText.writePower] at hc
  cases hpower : t.power with
  | none =>
    rw [hpower] at hc
    exact ⟨(hrest.not_digit hc).1, (hrest.not_digit hc).2.1⟩
  | some p =>
    rw [hpower] at hc
    obtain rfl := Symbol.char.inj (Option.some.inj hc)
    exact ⟨rfl, by decide⟩

/-- What follows on the digits before the point begins with no digit. -/
theorem Stops.head_writeFraction (hrest : Stops rest) (t : NumberText) {c : Char}
    (hc : (t.writeFraction.map Symbol.char ++
      (t.writePower.map Symbol.char ++ rest)).head? = some (.char c)) :
    c.isDigit = false := by
  rw [NumberText.writeFraction] at hc
  cases hfraction : t.fraction with
  | none =>
    rw [hfraction] at hc
    exact (hrest.head_writePower t hc).1
  | some ds =>
    rw [hfraction] at hc
    obtain rfl := Symbol.char.inj (Option.some.inj hc)
    rfl

section
variable (h : t.IsSound) (hrest : Stops rest)
include h hrest

theorem scanPower_write : scanPower (t.writePower.map .char ++ rest) = some (t.power, rest) := by
  have hnone (c : Char) (hc : rest.head? = some (.char c)) := (hrest.not_digit hc).1
  rw [NumberText.writePower]
  cases hpower : t.power with
  | none =>
    show scanPower rest = some (none, rest)
    unfold scanPower
    split
    case h_1 => exact absurd rfl (hrest.not_digit rfl).2.2.1
    case h_2 => exact absurd rfl (hrest.not_digit rfl).2.2.2
    case h_3 => rfl
  | some p =>
    obtain ⟨hne, hdigits⟩ := h.power p hpower
    obtain ⟨negated, ds⟩ := p
    obtain ⟨d, ds, rfl⟩ := List.exists_cons_of_ne_nil hne
    have hspan : spanDigits [] ((d :: ds).map .char ++ rest) = (d :: ds, rest) :=
      spanDigits_append hdigits hnone []
    have hd : d.isDigit = true := hdigits d List.mem_cons_self
    -- A digit is not taken for a sign.
    have hsign (c : Char) (hc : c.isDigit = false) (others : List Symbol) :
        ((d :: ds).map .char ++ rest) ≠ .char c :: others := by
      intro heq
      obtain rfl := Symbol.char.inj (List.cons.inj heq).1
      exact absurd hc (Bool.not_eq_false _ ▸ hd)
    cases negated with
    | true =>
      show scanExponent (.char '-' :: ((d :: ds).map .char ++ rest)) = _
      rw [scanExponent, hspan]
    | false =>
      show scanExponent ((d :: ds).map .char ++ rest) = _
      rw [scanExponent, hspan]
      · exact hsign '-' rfl
      · exact hsign '+' rfl

theorem scanFraction_write :
    scanFraction (t.writeFraction.map .char ++ (t.writePower.map .char ++ rest)) =
      some (t.fraction, t.writePower.map .char ++ rest) := by
  have hhead (c : Char) (hc : _ = some (Symbol.char c)) := hrest.head_writePower t hc
  generalize t.writePower.map Symbol.char ++ rest = others at hhead ⊢
  rw [NumberText.writeFraction]
  cases hfraction : t.fraction with
  | none =>
    show scanFraction others = _
    unfold scanFraction
    split
    case h_1 => exact absurd rfl (hhead _ rfl).2
    case h_2 => rfl
  | some ds =>
    obtain ⟨hne, hds⟩ := h.fraction ds hfraction
    obtain ⟨d, ds, rfl⟩ := List.exists_cons_of_ne_nil hne
    show scanFraction (.char '.' :: ((d :: ds).map .char ++ others)) = _
    rw [scanFraction, spanDigits_append hds (fun c hc ↦ (hhead c hc).1) []]
    rfl

/-- A number is read as its parts. -/
theorem scanNumber_write : scanNumber t.negated (t.write.map .char ++ rest) = some (t, rest) := by
  obtain ⟨hwhole, hdigits⟩ := h.whole
  have hpower := scanPower_write h hrest
  have hfraction := scanFraction_write h hrest
  have hhead (c : Char) (hc : _ = some (Symbol.char c)) := hrest.head_writeFraction t hc
  rw [NumberText.write, List.map_append, List.map_append, List.append_assoc, List.append_assoc]
  generalize t.writePower.map Symbol.char ++ rest = others at hpower hfraction hhead ⊢
  generalize t.writeFraction.map Symbol.char ++ others = behind at hfraction hhead ⊢
  have hscan : scanWhole (t.whole.map .char ++ behind) = some (t.whole, behind) := by
    rw [scanWhole, spanDigits_append hdigits hhead []]
    exact if_pos hwhole
  simp only [scanNumber, hscan, hfraction, hpower, Option.bind_eq_bind, Option.bind_some,
    Option.pure_def]

/-- A number is read as what it denotes. -/
theorem nextLexeme?_number : nextLexeme? ((t.sign ++ t.write).map .char ++ rest) =
    some (.number t.value?, rest) := by
  have hscan := scanNumber_write h hrest
  rw [NumberText.sign]
  cases hnegated : t.negated with
  | true =>
    rw [hnegated] at hscan
    show nextLexeme? (.char '-' :: (t.write.map .char ++ rest)) = _
    rw [nextLexeme?_cons (by decide), lexemeFrom_minus, hscan, Option.elim_some]
  | false =>
    rw [hnegated] at hscan
    obtain ⟨hwhole, hdigits⟩ := h.whole
    obtain ⟨d, ds, hds⟩ : ∃ d ds, t.whole = d :: ds := by
      cases hw : t.whole with
      | nil => rw [hw] at hwhole; cases hwhole
      | cons d ds => exact ⟨d, ds, rfl⟩
    have hd : d.isDigit = true := hdigits d (hds ▸ List.mem_cons_self)
    obtain ⟨others, hothers⟩ : ∃ others, t.write.map Symbol.char ++ rest = .char d :: others := by
      rw [NumberText.write, hds]
      exact ⟨_, rfl⟩
    rw [hothers] at hscan
    show nextLexeme? (t.write.map .char ++ rest) = _
    rw [hothers, nextLexeme?_cons (isGap_of_isDigit hd), lexemeFrom_of_isDigit hd, hscan,
      Option.elim_some]

end

/-- A number stands for what it denotes. -/
theorem Value.readsAs_number {v : Value} (h : t.IsSound) (hwrite : v.write = t.sign ++ t.write) :
    v.ReadsAs (.number t.value?) := by
  intro stack rest hrest
  rw [hwrite, Reading.readFrom_of_next (nextLexeme?_number h hrest)]
  rfl

/-! ### Whole numbers -/

theorem isWhole_cons {d : Char} (h : d ≠ '0') (ds : List Char) : isWhole (d :: ds) = true := by
  cases ds with
  | nil => rfl
  | cons d' ds => exact bne_iff_ne.2 h

theorem isWhole_digits (n : ℕ) : isWhole (digits n) = true := by
  rcases Nat.eq_zero_or_pos n with rfl | hpos
  · rfl
  · obtain ⟨d, ds, hds, hd⟩ := exists_digits_eq_cons hpos
    rw [hds]
    exact isWhole_cons hd ds

section
variable (hfraction : t.fraction = none) (hpower : t.power = none)
include hfraction hpower

/-- A whole number whose digits are all gathered is exact. -/
theorem NumberText.value?_of_gather (hnegated : t.negated = false)
    (h : gather 0 t.whole = (n, [])) : t.value? = some (.natural n) := by
  rw [value?, hfraction, hpower]
  dsimp only
  rw [h, hnegated]
  rfl

/-- With some digits left it is a double. -/
theorem NumberText.value?_of_left (h : (gather 0 t.whole).2 ≠ []) : t.value? = t.real? := by
  rw [value?, hfraction, hpower]
  dsimp only
  generalize gather 0 t.whole = gathered at h ⊢
  obtain ⟨n, left⟩ := gathered
  cases left with
  | nil => exact absurd rfl h
  | cons d ds => rfl

end

/-- A whole number is read as itself if it fits a word, and as no whole number otherwise. -/
theorem Value.readsAs_natural (n : ℕ) : ∃ number, (Value.natural n).ReadsAs (.number number) ∧
    (n ≤ maxSignificand → number = some (.natural n)) ∧
    (maxSignificand < n → ∀ m, number ≠ some (.natural m)) := by
  let t : NumberText := ⟨false, digits n, none, none⟩
  have hsound : t.IsSound :=
    { whole := ⟨isWhole_digits n, fun _ ↦ isDigit_of_mem_digits⟩
      fraction := nofun
      power := nofun }
  have hwrite : (Value.natural n).write = t.sign ++ t.write := (List.append_nil _).symm
  have hvalue : Nat.ofDigitChars 10 (digits n) 0 = n := value_digits n
  refine ⟨t.value?, readsAs_number hsound hwrite, fun hle ↦ ?_, fun hlt m ↦ ?_⟩
  · have hgather := gather_eq (hvalue.symm ▸ hle)
    rw [hvalue] at hgather
    exact t.value?_of_gather rfl rfl rfl hgather
  · rw [t.value?_of_left rfl rfl (gather_snd_ne_nil (Nat.zero_le _) (hvalue.symm ▸ hlt)),
      NumberText.real?]
    cases t.magnitude? <;> nofun

end Conveyor.Json
