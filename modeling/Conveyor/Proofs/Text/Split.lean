import Conveyor.Text.Split

/-!
# Pieces between commas

`pieces` is the inverse of joining with commas: a comma between two texts separates their pieces
(`pieces_append`), and texts without commas that are joined are its pieces (`pieces_intercalate`).

What holds of texts without commas, and of a text behind a comma where it holds of what follows, holds
of every text (`comma_induction`).
-/

namespace Conveyor.Text

theorem pieces_ne_nil (cs : List Char) : pieces cs ≠ [] := by
  cases cs with
  | nil => exact List.cons_ne_nil _ _
  | cons c cs =>
    rw [pieces]
    split
    · exact List.cons_ne_nil _ _
    · split <;> exact List.cons_ne_nil _ _

/-- A comma separates the pieces of the texts around it. -/
theorem pieces_append (xs ys : List Char) : pieces (xs ++ ',' :: ys) = pieces xs ++ pieces ys := by
  induction xs with
  | nil => rfl
  | cons x xs ih =>
    rw [List.cons_append, pieces, pieces, ih]
    by_cases hx : x = ','
    · rw [if_pos hx, if_pos hx, List.cons_append]
    · obtain ⟨p, ps, hpieces⟩ := List.exists_cons_of_ne_nil (pieces_ne_nil xs)
      rw [if_neg hx, if_neg hx, hpieces]
      rfl

/-- A text without commas is one piece. -/
theorem pieces_of_not_mem {cs : List Char} (h : ',' ∉ cs) : pieces cs = [cs] := by
  induction cs with
  | nil => rfl
  | cons c cs ih =>
    rw [pieces, if_neg (List.ne_of_not_mem_cons h).symm, ih (List.not_mem_of_not_mem_cons h)]

/-- An induction over the pieces of a text. -/
theorem comma_induction {motive : List Char → Prop} (piece : ∀ cs, ',' ∉ cs → motive cs)
    (comma : ∀ xs ys, ',' ∉ xs → motive ys → motive (xs ++ ',' :: ys)) (cs : List Char) :
    motive cs := by
  by_cases hcomma : ',' ∈ cs
  · obtain ⟨xs, ys, rfl, hxs⟩ := List.eq_append_cons_of_mem hcomma
    exact comma xs ys hxs (comma_induction piece comma ys)
  · exact piece cs hcomma
termination_by cs.length

/-- No piece has a comma in it. -/
theorem comma_notMem_of_mem_pieces {cs p : List Char} (h : p ∈ pieces cs) : ',' ∉ p := by
  induction cs using comma_induction with
  | piece cs hcs =>
    rw [pieces_of_not_mem hcs, List.mem_singleton] at h
    rwa [h]
  | comma xs ys hxs ih =>
    rw [pieces_append, pieces_of_not_mem hxs, List.singleton_append, List.mem_cons] at h
    rcases h with rfl | h
    · exact hxs
    · exact ih h

/-- Texts without commas are the pieces of what they are joined to. -/
theorem pieces_intercalate {parts : List (List Char)} (hparts : parts ≠ [])
    (h : ∀ part ∈ parts, ',' ∉ part) : pieces (List.intercalate [','] parts) = parts := by
  induction parts with
  | nil => exact absurd rfl hparts
  | cons part parts ih =>
    obtain ⟨hfirst, hrest⟩ := List.forall_mem_cons.1 h
    rcases parts with - | ⟨next, parts⟩
    · rw [List.intercalate_singleton, pieces_of_not_mem hfirst]
    · rw [List.intercalate_cons_cons, List.append_assoc, List.singleton_append, pieces_append,
        pieces_of_not_mem hfirst, ih (List.cons_ne_nil _ _) hrest, List.singleton_append]

end Conveyor.Text
