import Mathlib.Data.List.DropRight
import Conveyor.Text.Blank

/-!
# Trimmed texts

A text is trimmed if neither end of it is blank (`Trimmed`). What trimming leaves is such a text
(`trimmed_trimChars`), and these are the texts that it does not change (`trimChars_eq_self_iff`).

Nothing but blanks is dropped (`exists_blanks_around`), and blanks around a text do not change what
is left of it (`trimChars_blanks_append`, `trimChars_append_blanks`).
-/

namespace Conveyor.Text

variable {cs : List Char}

/-- Neither the first character nor the last one is blank. -/
structure Trimmed (cs : List Char) : Prop where
  /-- The first one is not. -/
  head : ∀ c ∈ cs.head?, isBlank c = false
  /-- The last one is not. -/
  last : ∀ c ∈ cs.getLast?, isBlank c = false

theorem isBlank_of_mem_head?_trimStart {c : Char} (h : c ∈ (trimStart cs).head?) :
    isBlank c = false := by
  have hhead := List.head?_dropWhile_not isBlank cs
  rw [Option.mem_def, trimStart] at h
  rwa [h] at hhead

theorem trimStart_eq_self (h : ∀ c ∈ cs.head?, isBlank c = false) : trimStart cs = cs := by
  rcases cs with - | ⟨c, cs⟩
  · rfl
  · exact trimStart_cons_of_not_blank (h c rfl)

/-- Nothing is blank at the ends that trimming leaves. -/
theorem trimmed_trimChars (cs : List Char) : Trimmed (trimChars cs) where
  head c hc := by
    -- What is dropped at the end leaves the first character in its place.
    obtain ⟨dropped, hsplit⟩ : trimChars cs <+: trimStart cs := List.rdropWhile_prefix isBlank _
    have hstart : c ∈ (trimStart cs).head? := by
      rw [← hsplit, List.head?_append, Option.mem_def.1 hc]
      rfl
    exact isBlank_of_mem_head?_trimStart hstart
  last c hc := by
    rw [trimChars, trimEnd, List.getLast?_reverse] at hc
    exact isBlank_of_mem_head?_trimStart hc

/-- Trimming does not change a text if and only if it is trimmed. -/
theorem trimChars_eq_self_iff : trimChars cs = cs ↔ Trimmed cs := by
  refine ⟨fun h ↦ h ▸ trimmed_trimChars cs, fun h ↦ ?_⟩
  have hback : trimStart cs.reverse = cs.reverse :=
    trimStart_eq_self fun c hc ↦ h.last c (by rwa [← List.head?_reverse])
  rw [trimChars, trimStart_eq_self h.head, trimEnd, hback, List.reverse_reverse]

/-! ### Blanks around a text -/

variable {blanks : List Char}

theorem trimStart_blanks_append (h : ∀ c ∈ blanks, isBlank c = true) (cs : List Char) :
    trimStart (blanks ++ cs) = trimStart cs :=
  List.dropWhile_append_of_pos h

theorem trimEnd_append_blanks (h : ∀ c ∈ blanks, isBlank c = true) (cs : List Char) :
    trimEnd (cs ++ blanks) = trimEnd cs := by
  have hback : ∀ c ∈ blanks.reverse, isBlank c = true := fun c hc ↦ h c (List.mem_reverse.1 hc)
  rw [trimEnd, trimEnd, List.reverse_append, trimStart_blanks_append hback]

/-- Blanks in front of a text do not count. -/
theorem trimChars_blanks_append (h : ∀ c ∈ blanks, isBlank c = true) (cs : List Char) :
    trimChars (blanks ++ cs) = trimChars cs := by
  rw [trimChars, trimChars, trimStart_blanks_append h]

/-- Blanks behind a text do not count. -/
theorem trimChars_append_blanks (h : ∀ c ∈ blanks, isBlank c = true) (cs : List Char) :
    trimChars (cs ++ blanks) = trimChars cs := by
  rcases hstart : trimStart cs with - | ⟨c, rest⟩
  · -- Nothing is left in front of the blanks, so they are dropped from the front as well.
    have hall : trimStart (cs ++ blanks) = [] := by
      rw [trimStart, List.dropWhile_append, ← trimStart, hstart, List.isEmpty_nil, if_pos rfl]
      exact List.dropWhile_eq_nil_iff.2 h
    rw [trimChars, trimChars, hall, hstart]
  · have hleft : trimStart (cs ++ blanks) = trimStart cs ++ blanks := by
      rw [trimStart, List.dropWhile_append, ← trimStart, hstart]
      rfl
    rw [trimChars, trimChars, hleft, trimEnd_append_blanks h]

/-- Nothing but blanks is dropped. -/
theorem exists_blanks_around (cs : List Char) :
    ∃ front back : List Char, (∀ c ∈ front, isBlank c = true) ∧ (∀ c ∈ back, isBlank c = true) ∧
      cs = front ++ trimChars cs ++ back := by
  refine ⟨cs.takeWhile isBlank, ((trimStart cs).reverse.takeWhile isBlank).reverse,
    fun c hc ↦ List.mem_takeWhile_imp hc,
    fun c hc ↦ List.mem_takeWhile_imp (List.mem_reverse.1 hc), ?_⟩
  have hback : trimChars cs ++ ((trimStart cs).reverse.takeWhile isBlank).reverse = trimStart cs := by
    rw [trimChars, trimEnd, trimStart, ← List.reverse_append, List.takeWhile_append_dropWhile,
      List.reverse_reverse]
  rw [List.append_assoc, hback, trimStart, List.takeWhile_append_dropWhile]

end Conveyor.Text
