import Conveyor.Proofs.Text.Lower
import Conveyor.Proofs.Text.Trim

/-!
# Lower case stays lower case

A text in lower case is not changed by lower-casing it (`lowerChars_lowerChars`), and no blank
character comes into a text or goes from its ends (`Trimmed.lowerChars`).

Both are facts about the table of capitals. A small letter of one run is a capital of no run, which is
seen on two runs at a time: the small letters of the one stand before or after the capitals of the
other, or in turn with them (`CaseRun.apart`). And there are stretches of code points without small
letters, in which are the blank characters, the two capitals that are lower-cased in a way of their
own, and the surrogates, which are no characters (`withoutSmall`).
-/

namespace Conveyor.Text

/-! ### Small letters -/

namespace CaseRun

variable {r r' : CaseRun} {n : Nat}

/-- The small letters of the run are not from the first code point to the last one. -/
def avoids (r : CaseRun) (first last : Nat) : Bool :=
  r.image r.last < first || last < r.image r.first

/-- The small letters of a run are not among the capitals of another, nor of itself. -/
def apart (r r' : CaseRun) : Bool :=
  r.avoids r'.first r'.last ||
    ((r.step == 2 || r.first == r.last) && r'.step == 2 && r.image r.first % 2 != r'.first % 2)

theorem covers_iff :
    r.covers n = true ↔ r.first ≤ n ∧ n ≤ r.last ∧ (n - r.first) % r.step = 0 := by
  simp [covers, and_assoc]

/-- The small letters of a run are in the order of the capitals. -/
theorem image_mem (h : r.covers n = true) :
    r.image r.first ≤ r.image n ∧ r.image n ≤ r.image r.last := by
  obtain ⟨hfirst, hlast, -⟩ := covers_iff.1 h
  rw [image, image, image]
  omega

theorem not_mem_of_avoids {first last : Nat} (hr : r.avoids first last = true)
    (h : r.covers n = true) : r.image n < first ∨ last < r.image n := by
  obtain ⟨hfirst, hlast⟩ := image_mem h
  rw [avoids, Bool.or_eq_true, decide_eq_true_iff, decide_eq_true_iff] at hr
  omega

/-- A small letter of one run is not a capital of a run apart from it. -/
theorem covers_image_of_apart (hstart : 0 ≤ r.first + r.shift) (hr : r.apart r' = true)
    (h : r.covers n = true) : r'.covers (r.image n) = false := by
  rw [← Bool.not_eq_true, covers_iff]
  rintro ⟨hfirst', hlast', hstep'⟩
  rw [apart, Bool.or_eq_true] at hr
  rcases hr with havoids | hturn
  · rcases not_mem_of_avoids havoids h with hlt | hgt <;> omega
  · obtain ⟨hfirst, hlast, hstep⟩ := covers_iff.1 h
    simp only [Bool.and_eq_true, Bool.or_eq_true, beq_iff_eq, bne_iff_ne, image] at hturn
    obtain ⟨⟨htwo | hone, htwo'⟩, hparity⟩ := hturn
    · rw [htwo] at hstep
      rw [htwo', image] at hstep'
      rw [image] at hfirst'
      omega
    · rw [htwo', image] at hstep'
      rw [image] at hfirst'
      omega

end CaseRun

/-- Stretches of code points without small letters. -/
def withoutSmall : List (Nat × Nat) :=
  [(9, 13), (0x20, 0x20), (0x85, 0x85), (0xA0, 0xA0), (0x130, 0x130), (0x3A3, 0x3A3),
   (0x1680, 0x1680), (0x2000, 0x200A), (0x2028, 0x2029), (0x202F, 0x202F), (0x205F, 0x205F),
   (0x3000, 0x3000), (0xD800, 0xDFFF)]

theorem caseRuns_apart : (caseRuns.all fun r ↦ caseRuns.all r.apart) = true := by decide +kernel

theorem caseRuns_avoid :
    (caseRuns.all fun r ↦ withoutSmall.all fun p ↦ r.avoids p.1 p.2) = true := by decide +kernel

theorem caseRuns_bound :
    ∀ r ∈ caseRuns, 0 ≤ r.first + r.shift ∧ r.image r.last < 0x110000 := by decide +kernel

/-- A code point that may be that of a small letter: a character, no capital and not blank. -/
structure IsSmall (n : Nat) : Prop where
  /-- No run has it as a capital. -/
  capital : ∀ r ∈ caseRuns, r.covers n = false
  /-- It is in no stretch without small letters. -/
  outside : ∀ p ∈ withoutSmall, n < p.1 ∨ p.2 < n
  /-- It is not greater than that of a character. -/
  bound : n < 0x110000

/-- What a capital is moved to is a small letter. -/
theorem isSmall_image {r : CaseRun} {n : Nat} (hr : r ∈ caseRuns) (hn : r.covers n = true) :
    IsSmall (r.image n) where
  capital r' hr' := by
    have hapart := List.all_eq_true.1 (List.all_eq_true.1 caseRuns_apart r hr) r' hr'
    exact CaseRun.covers_image_of_apart (caseRuns_bound r hr).1 hapart hn
  outside p hp := by
    have havoids := List.all_eq_true.1 (List.all_eq_true.1 caseRuns_avoid r hr) p hp
    exact CaseRun.not_mem_of_avoids havoids hn
  bound := Nat.lt_of_le_of_lt (CaseRun.image_mem hn).2 (caseRuns_bound r hr).2

namespace IsSmall

variable {n : Nat}

theorem toNat_ofNat (h : IsSmall n) : (Char.ofNat n).toNat = n := by
  have hsurrogate : n < 0xD800 ∨ 0xDFFF < n := h.outside (0xD800, 0xDFFF) (by decide)
  have hvalid : n.isValidChar := hsurrogate.imp_right fun hn ↦ ⟨hn, h.bound⟩
  rw [Char.ofNat, dif_pos hvalid]
  rfl

theorem isBlank_ofNat (h : IsSmall n) : isBlank (Char.ofNat n) = false := by
  have houtside := h.outside
  simp only [withoutSmall, List.forall_mem_cons] at houtside
  simp only [isBlank, h.toNat_ofNat, Bool.or_eq_false_iff, Bool.and_eq_false_iff,
    decide_eq_false_iff_not, beq_eq_false_iff_ne]
  omega

/-- A small letter is neither of the two capitals that are lower-cased in a way of their own. -/
theorem ofNat_ne (h : IsSmall n) : Char.ofNat n ≠ 'Σ' ∧ Char.ofNat n ≠ 'İ' := by
  have hsigma : n < 0x3A3 ∨ 0x3A3 < n := h.outside (0x3A3, 0x3A3) (by decide)
  have hdotted : n < 0x130 ∨ 0x130 < n := h.outside (0x130, 0x130) (by decide)
  refine ⟨fun heq ↦ ?_, fun heq ↦ ?_⟩
  · have hn : n = 0x3A3 := by rw [← h.toNat_ofNat, heq]; rfl
    omega
  · have hn : n = 0x130 := by rw [← h.toNat_ofNat, heq]; rfl
    omega

end IsSmall

/-! ### Lower case of a character -/

/-- The run of the letters that are told by two comparisons, without a look at the table. -/
def asciiRun : CaseRun := ⟨0x41, 0x5A, 1, 32⟩

theorem asciiRun_mem : asciiRun ∈ caseRuns := List.mem_cons_self

theorem asciiRun_covers {n : Nat} (h : (0x41 ≤ n && n ≤ 0x5A) = true) :
    asciiRun.covers n = true := by
  rw [Bool.and_eq_true, decide_eq_true_iff, decide_eq_true_iff] at h
  exact CaseRun.covers_iff.2 ⟨h.1, h.2, Nat.mod_one _⟩

/-- A character that has a lower-case partner goes to a small letter. -/
theorem lowerSimple_eq_or (c : Char) :
    lowerSimple c = c ∨ ∃ n, IsSmall n ∧ lowerSimple c = Char.ofNat n := by
  simp only [lowerSimple]
  split_ifs with hascii hcapital
  · exact .inr ⟨_, isSmall_image asciiRun_mem (asciiRun_covers hcapital), rfl⟩
  · exact .inl rfl
  · rcases hrun : caseRuns.find? fun r ↦ r.covers c.toNat with - | r
    · exact .inl (by rw [hrun])
    · have hcovers := List.find?_some (p := fun r : CaseRun ↦ r.covers c.toNat) hrun
      exact .inr ⟨_, isSmall_image (List.mem_of_find?_eq_some hrun) hcovers, by rw [hrun]⟩

/-- A character that is no capital has no lower-case partner. -/
theorem lowerSimple_of_not_covers {c : Char} (h : ∀ r ∈ caseRuns, r.covers c.toNat = false) :
    lowerSimple c = c := by
  simp only [lowerSimple]
  split_ifs with hascii hcapital
  · have hcovers := h asciiRun asciiRun_mem
    rw [asciiRun_covers hcapital] at hcovers
    exact absurd hcovers Bool.false_ne_true.symm
  · rfl
  · have hnone : (caseRuns.find? fun r ↦ r.covers c.toNat) = none :=
      List.find?_eq_none.2 fun r hr ↦ by rw [h r hr]; exact Bool.false_ne_true
    rw [hnone]

/-- A character that is its own lower case, wherever it stands. -/
structure Settled (c : Char) : Prop where
  /-- It is not the sigma, which has two. -/
  ne_sigma : c ≠ 'Σ'
  /-- It is not the capital whose lower case is two characters. -/
  ne_dotted : c ≠ 'İ'
  /-- It has no lower-case partner. -/
  simple : lowerSimple c = c

theorem Settled.lowerAt {c : Char} (h : Settled c) (before after : List Char) :
    lowerAt before c after = [c] := by
  rw [Text.lowerAt, if_neg h.ne_sigma, if_neg h.ne_dotted, h.simple]

theorem Settled.lowerSimple {c : Char} (hsigma : c ≠ 'Σ') (hdotted : c ≠ 'İ') :
    Settled (lowerSimple c) := by
  rcases lowerSimple_eq_or c with hsame | ⟨n, hn, hlower⟩
  · rw [hsame]
    exact ⟨hsigma, hdotted, hsame⟩
  · rw [hlower]
    refine ⟨hn.ofNat_ne.1, hn.ofNat_ne.2, lowerSimple_of_not_covers fun r hr ↦ ?_⟩
    rw [hn.toNat_ofNat, hn.capital r hr]

/-- The lower case of a character is its own lower case. -/
theorem settled_of_mem_lowerAt {before after : List Char} {c d : Char}
    (h : d ∈ lowerAt before c after) : Settled d := by
  rw [lowerAt] at h
  split_ifs at h with hsigma hword hdotted
  · rw [List.mem_singleton.1 h]
    exact ⟨by decide, by decide, by decide +kernel⟩
  · rw [List.mem_singleton.1 h]
    exact ⟨by decide, by decide, by decide +kernel⟩
  · rcases List.mem_pair.1 h with rfl | rfl
    · exact ⟨by decide, by decide, by decide +kernel⟩
    · exact ⟨by decide, by decide, by decide +kernel⟩
  · rw [List.mem_singleton.1 h]
    exact .lowerSimple hsigma hdotted

/-- The lower case of a character that is not blank has nothing blank in it. -/
theorem isBlank_of_mem_lowerAt {before after : List Char} {c d : Char} (hc : isBlank c = false)
    (h : d ∈ lowerAt before c after) : isBlank d = false := by
  rw [lowerAt] at h
  split_ifs at h with hsigma hword hdotted
  · rw [List.mem_singleton.1 h]
    decide
  · rw [List.mem_singleton.1 h]
    decide
  · rcases List.mem_pair.1 h with rfl | rfl <;> decide
  · rw [List.mem_singleton.1 h]
    rcases lowerSimple_eq_or c with hsame | ⟨n, hn, hlower⟩
    · rwa [hsame]
    · rw [hlower]
      exact hn.isBlank_ofNat

/-! ### Lower case of a text -/

theorem lowerPiece_of_settled {cs : List Char} (h : ∀ c ∈ cs, Settled c) (before after : List Char) :
    lowerPiece before cs after = cs := by
  induction cs generalizing before with
  | nil => rfl
  | cons c cs ih =>
    obtain ⟨hfirst, hrest⟩ := List.forall_mem_cons.1 h
    rw [lowerPiece, hfirst.lowerAt, ih hrest, List.singleton_append]

theorem settled_of_mem_lowerPiece {before cs after : List Char} {d : Char}
    (h : d ∈ lowerPiece before cs after) : Settled d := by
  induction cs generalizing before with
  | nil => exact absurd h List.not_mem_nil
  | cons c cs ih =>
    rcases List.mem_append.1 h with hfirst | hrest
    · exact settled_of_mem_lowerAt hfirst
    · exact ih hrest

/-- A text in lower case is its own lower case. -/
theorem lowerChars_lowerChars (cs : List Char) : lowerChars (lowerChars cs) = lowerChars cs := by
  rw [lowerChars_eq (lowerChars cs)]
  refine lowerPiece_of_settled (fun c hc ↦ ?_) [] []
  rw [lowerChars_eq] at hc
  exact settled_of_mem_lowerPiece hc

/-- The lower case of a trimmed text is trimmed. -/
theorem Trimmed.lowerChars {cs : List Char} (h : Trimmed cs) : Trimmed (lowerChars cs) where
  head d hd := by
    rcases cs with - | ⟨c, cs⟩
    · cases hd
    · have hmem : d ∈ lowerAt [] c (cs ++ []) := by
        rw [lowerChars_eq, lowerPiece, List.head?_append_of_ne_nil _ (lowerAt_ne_nil _ _ _)] at hd
        exact List.mem_of_head? hd
      exact isBlank_of_mem_lowerAt (h.head c rfl) hmem
  last d hd := by
    rcases List.eq_nil_or_concat cs with rfl | ⟨cs, c, rfl⟩
    · cases hd
    · have hmem : d ∈ lowerAt (cs.reverse ++ []) c [] := by
        rw [List.concat_eq_append, lowerChars_eq, lowerPiece_append, lowerPiece, lowerPiece,
          List.append_nil (lowerAt _ _ _), List.getLast?_append_of_ne_nil _ (lowerAt_ne_nil _ _ _)] at hd
        exact List.mem_of_getLast? hd
      exact isBlank_of_mem_lowerAt (h.last c (by simp)) hmem

end Conveyor.Text
