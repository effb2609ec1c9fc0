import Conveyor.Text.Lower

/-!
# Lower-casing a piece of a text

The lower case of a text is that of its pieces, one after the other, if each piece is lower-cased in
the place where it stands (`lowerChars_append`). A piece that is lower-cased by itself may come out
in another way, because a sigma looks past the ends of the piece to see whether it ends a word.

That is the only difference, and `lowerPiece_eq_iff` says so: a piece has its own lower case in a
place if and only if each of its sigmas ends a word there just when it does in the piece by itself.
This is so where no sigma is near the ends of the piece (`KeepsSigmas.of_inner`), and where the
piece stands apart from the letters around it (`KeepsSigmas.of_apart`).
-/

namespace Conveyor.Text

/-! ### Pieces -/

/-- The lower case of a piece of a text between the text `before` it, read backwards, and the text
`after` it. -/
def lowerPiece (before : List Char) : List Char → List Char → List Char
  | [], _ => []
  | c :: cs, after => lowerAt before c (cs ++ after) ++ lowerPiece (c :: before) cs after

theorem lowerAfter_eq (before done cs : List Char) :
    lowerAfter before done cs = done.reverse ++ lowerPiece before cs [] := by
  induction cs generalizing before done with
  | nil => exact (List.append_nil _).symm
  | cons c cs ih =>
    rw [lowerAfter, ih, List.reverseAux_eq, List.reverse_append, List.reverse_reverse, lowerPiece,
      List.append_nil, List.append_assoc]

/-- A whole text is a piece with nothing around it. -/
theorem lowerChars_eq (cs : List Char) : lowerChars cs = lowerPiece [] cs [] :=
  lowerAfter_eq [] [] cs

theorem lowerPiece_append (before xs ys after : List Char) :
    lowerPiece before (xs ++ ys) after =
      lowerPiece before xs (ys ++ after) ++ lowerPiece (xs.reverse ++ before) ys after := by
  induction xs generalizing before with
  | nil => rfl
  | cons x xs ih =>
    rw [List.cons_append, lowerPiece, lowerPiece, ih, List.append_assoc, List.append_assoc,
      List.reverse_cons, List.append_assoc]
    rfl

/-- The lower case of a text shows that of a piece in its place. -/
theorem lowerChars_append (front piece back : List Char) :
    lowerChars (front ++ piece ++ back) =
      lowerPiece [] front (piece ++ back) ++ lowerPiece front.reverse piece back ++
        lowerPiece (piece.reverse ++ front.reverse) back [] := by
  rw [lowerChars_eq, lowerPiece_append, lowerPiece_append, List.reverse_append, List.append_nil,
    List.append_nil, List.append_nil]

theorem lowerAt_ne_nil (before : List Char) (c : Char) (after : List Char) :
    lowerAt before c after ≠ [] := by
  rw [lowerAt]
  split
  · split <;> exact List.cons_ne_nil _ _
  · split <;> exact List.cons_ne_nil _ _

/-- Nothing is lost of a text. -/
theorem lowerChars_ne_nil {cs : List Char} (h : cs ≠ []) : lowerChars cs ≠ [] := by
  obtain ⟨c, cs, rfl⟩ := List.exists_cons_of_ne_nil h
  rw [lowerChars_eq, lowerPiece]
  exact List.append_ne_nil_of_left_ne_nil (lowerAt_ne_nil _ _ _) _

/-! ### Sigmas -/

/-- A sigma between these texts, the first of them read backwards, ends a word. -/
def endsWord (before after : List Char) : Bool :=
  meetsCased before && !meetsCased after

/-- Each sigma of a piece ends a word in its place, with the text `before` it read backwards, just
when it does in the piece by itself. -/
def KeepsSigmas (before piece after : List Char) : Prop :=
  ∀ xs ys, piece = xs ++ 'Σ' :: ys →
    endsWord (xs.reverse ++ before) (ys ++ after) = endsWord xs.reverse ys

/-- Two places show in the lower case of a sigma if it ends a word in one of them only, and do not
show in that of another character. -/
theorem lowerAt_eq_iff {before after before' after' : List Char} {c : Char} :
    lowerAt before c after = lowerAt before' c after' ↔
      (c = 'Σ' → endsWord before after = endsWord before' after') := by
  by_cases hc : c = 'Σ'
  · rw [lowerAt, lowerAt, if_pos hc, if_pos hc, ← endsWord, ← endsWord]
    cases endsWord before after <;> cases endsWord before' after' <;> simp [hc]
  · rw [lowerAt, lowerAt, if_neg hc, if_neg hc]
    exact iff_of_true rfl fun hsigma ↦ absurd hsigma hc

theorem length_lowerAt (before after before' after' : List Char) (c : Char) :
    (lowerAt before c after).length = (lowerAt before' c after').length := by
  rw [lowerAt, lowerAt]
  split
  · split <;> split <;> rfl
  · rfl

/-- A piece has one lower case in two places if and only if each of its sigmas ends a word in both
of them or in neither. -/
theorem lowerPiece_eq_lowerPiece_iff {before after before' after' piece : List Char} :
    lowerPiece before piece after = lowerPiece before' piece after' ↔
      ∀ xs ys, piece = xs ++ 'Σ' :: ys →
        endsWord (xs.reverse ++ before) (ys ++ after) =
          endsWord (xs.reverse ++ before') (ys ++ after') := by
  induction piece generalizing before before' with
  | nil => simp [lowerPiece]
  | cons c cs ih =>
    have hsplit : lowerPiece before (c :: cs) after = lowerPiece before' (c :: cs) after' ↔
        lowerAt before c (cs ++ after) = lowerAt before' c (cs ++ after') ∧
          lowerPiece (c :: before) cs after = lowerPiece (c :: before') cs after' :=
      List.append_eq_append_iff_of_size_eq_left (length_lowerAt ..)
    rw [hsplit, lowerAt_eq_iff, ih]
    constructor
    · rintro ⟨hfirst, hrest⟩ xs ys hpiece
      rcases xs with - | ⟨x, xs⟩
      · obtain ⟨hc, rfl⟩ := List.cons.inj hpiece
        exact hfirst hc
      · obtain ⟨rfl, rfl⟩ := List.cons.inj hpiece
        simpa using hrest xs ys rfl
    · intro h
      refine ⟨fun hc ↦ h [] cs (by rw [hc]; rfl), fun xs ys hpiece ↦ ?_⟩
      simpa using h (c :: xs) ys (by rw [hpiece]; rfl)

/-- A piece has its own lower case in a place if and only if its sigmas do not change there. -/
theorem lowerPiece_eq_iff {before piece after : List Char} :
    lowerPiece before piece after = lowerChars piece ↔ KeepsSigmas before piece after := by
  rw [lowerChars_eq, lowerPiece_eq_lowerPiece_iff, KeepsSigmas]
  simp only [List.append_nil]

/-! ### Where sigmas do not change -/

/-- A text that does not come to a cased character by itself does not hide one behind it. -/
theorem meetsCased_append_of_meetsCased_eq_false (cs : List Char) {ds : List Char}
    (h : meetsCased ds = false) : meetsCased (cs ++ ds) = meetsCased cs := by
  rw [meetsCased, meetsCased, List.find?_append]
  rcases cs.find? fun c ↦ !isCaseIgnorable c with - | c
  · exact h
  · rfl

/-- What is behind a character that is not passed over does not count. -/
theorem meetsCased_append_of_mem {cs : List Char} {c : Char} (hc : c ∈ cs)
    (hstop : isCaseIgnorable c = false) (ds : List Char) :
    meetsCased (cs ++ ds) = meetsCased cs := by
  have hfind : (cs.find? fun c ↦ !isCaseIgnorable c).isSome := by
    rw [List.find?_isSome]
    exact ⟨c, hc, by rw [hstop]; rfl⟩
  obtain ⟨d, hd⟩ := Option.isSome_iff_exists.1 hfind
  rw [meetsCased, meetsCased, List.find?_append, hd]
  rfl

/-- Each sigma of a piece has characters on both sides in the piece that are not passed over. -/
def SigmasInner (piece : List Char) : Prop :=
  ∀ xs ys, piece = xs ++ 'Σ' :: ys →
    (∃ c ∈ xs, isCaseIgnorable c = false) ∧ ∃ c ∈ ys, isCaseIgnorable c = false

theorem SigmasInner.of_not_mem {piece : List Char} (h : 'Σ' ∉ piece) : SigmasInner piece := by
  intro xs ys hpiece
  refine absurd ?_ h
  rw [hpiece]
  exact List.mem_append_right _ List.mem_cons_self

/-- A piece whose sigmas see no end of it keeps them in every place. -/
theorem KeepsSigmas.of_inner {piece : List Char} (h : SigmasInner piece)
    (before after : List Char) : KeepsSigmas before piece after := by
  intro xs ys hpiece
  obtain ⟨⟨x, hx, hxstop⟩, ⟨y, hy, hystop⟩⟩ := h xs ys hpiece
  rw [endsWord, endsWord, meetsCased_append_of_mem (List.mem_reverse.2 hx) hxstop,
    meetsCased_append_of_mem hy hystop]

/-- A piece with no cased character next to it keeps its sigmas. -/
theorem KeepsSigmas.of_apart {before after : List Char} (hbefore : meetsCased before = false)
    (hafter : meetsCased after = false) (piece : List Char) : KeepsSigmas before piece after := by
  intro xs ys _
  rw [endsWord, endsWord, meetsCased_append_of_meetsCased_eq_false _ hbefore,
    meetsCased_append_of_meetsCased_eq_false _ hafter]

end Conveyor.Text
