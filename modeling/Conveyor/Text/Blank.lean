/-!
# Blank characters and trimming

A character is *blank* when it has the Unicode property `White_Space`: the tab and the line breaks,
the space, and the spaces of other scripts and of typography. The zero-width characters (`U+200B`,
`U+FEFF`) and the information separators (`U+001C` to `U+001F`) are not blank.

`trim` is stated on lists of characters first, because that is where it is reasoned about:
`trimStart` is `List.dropWhile`, and `trimEnd` is `trimStart` read from the other end.
-/

namespace Conveyor.Text

/-- The character has the property `White_Space`. -/
def isBlank (c : Char) : Bool :=
  let n := c.toNat
  (9 ≤ n && n ≤ 13) || n == 0x20 || n == 0x85 || n == 0xA0 || n == 0x1680 ||
  (0x2000 ≤ n && n ≤ 0x200A) || n == 0x2028 || n == 0x2029 || n == 0x202F || n == 0x205F ||
  n == 0x3000

/-- Drops the blank characters in front. -/
def trimStart (cs : List Char) : List Char :=
  cs.dropWhile isBlank

/-- Drops the blank characters at the end. -/
def trimEnd (cs : List Char) : List Char :=
  (trimStart cs.reverse).reverse

/-- Drops the blank characters at both ends. -/
def trimChars (cs : List Char) : List Char :=
  trimEnd (trimStart cs)

/-- The text without the blank characters at its ends. -/
def trim (s : String) : String :=
  String.ofList (trimChars s.toList)

/-- The text has no character other than blank ones. -/
def isBlankText (s : String) : Bool :=
  s.toList.all isBlank

/-! ### Small lemmas -/

theorem trimStart_cons_of_not_blank {c : Char} {cs : List Char} (h : isBlank c = false) :
    trimStart (c :: cs) = c :: cs := by
  simp [trimStart, h]

@[simp] theorem toList_trim (s : String) : (trim s).toList = trimChars s.toList := by
  simp [trim]

/-- Nothing is left of a text that is trimmed if and only if all its characters are blank. -/
theorem trim_eq_empty_iff {s : String} : trim s = "" ↔ isBlankText s = true := by
  have hall (cs : List Char) : cs.dropWhile isBlank = [] ↔ cs.all isBlank = true := by
    induction cs with
    | nil => simp
    | cons c cs ih => cases hc : isBlank c <;> simp [hc, ih]
  have hfront : (s.toList.takeWhile isBlank).all isBlank = true := List.all_takeWhile
  have hsplit := List.takeWhile_append_dropWhile (p := isBlank) (l := s.toList)
  calc trim s = "" ↔ trimChars s.toList = [] := by
        rw [← String.toList_inj, toList_trim, String.toList_empty]
    _ ↔ (s.toList.dropWhile isBlank).all isBlank = true := by
        rw [trimChars, trimEnd, trimStart, trimStart, List.reverse_eq_nil_iff, hall,
          List.all_reverse]
    _ ↔ isBlankText s = true := by
        rw [isBlankText, ← hsplit, List.all_append, hfront, Bool.true_and, hsplit]

end Conveyor.Text
