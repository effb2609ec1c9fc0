import Conveyor.Text.CaseTable

/-!
# Lower-casing

Full lower-casing of a text, independent of language. A character goes to its lower-case partner,
with two exceptions:

* `İ` (`U+0130`) becomes an `i` followed by a combining dot above, the only character whose lower
  case has two characters;
* `Σ` becomes `ς` where it ends a word and `σ` elsewhere. It *ends a word* when the text before it,
  read backwards past case-ignorable characters, comes to a cased character, and the text after it,
  read forwards in the same way, does not.

Only the sigma looks at its neighbours, and it looks at the text as it was before lower-casing.
-/

namespace Conveyor.Text

/-- The lower-case partner of a character, or the character itself if it has none. -/
def lowerSimple (c : Char) : Char :=
  let n := c.toNat
  if n < 0x80 then
    if 0x41 ≤ n && n ≤ 0x5A then Char.ofNat (n + 32) else c
  else
    match caseRuns.find? fun r ↦ r.covers n with
    | some r => Char.ofNat (r.image n)
    | none => c

/-- The character has the property `Cased`: it has a lower, an upper or a title case. -/
def isCased (c : Char) : Bool :=
  casedRanges.contains c.toNat

/-- The character has the property `Case_Ignorable`: it is passed over when looking for a case. -/
def isCaseIgnorable (c : Char) : Bool :=
  caseIgnorableRanges.contains c.toNat

/-- The first character that is not case-ignorable exists and is cased. -/
def meetsCased (cs : List Char) : Bool :=
  match cs.find? fun c ↦ !isCaseIgnorable c with
  | some c => isCased c
  | none => false

/-- The lower case of one character between the text `before` it, read backwards, and the text
`after` it. -/
def lowerAt (before : List Char) (c : Char) (after : List Char) : List Char :=
  if c = 'Σ' then
    if meetsCased before && !meetsCased after then ['ς'] else ['σ']
  else if c = 'İ' then ['i', '\u0307']
  else [lowerSimple c]

/-- Lower-cases what is left of a text after `before`, which is read backwards; `done` is the result
so far, read backwards. -/
def lowerAfter (before done : List Char) : List Char → List Char
  | [] => done.reverse
  | c :: cs => lowerAfter (c :: before) ((lowerAt before c cs).reverseAux done) cs

/-- The characters of a text in lower case. -/
def lowerChars (cs : List Char) : List Char :=
  lowerAfter [] [] cs

/-- The text in lower case. -/
def lower (s : String) : String :=
  String.ofList (lowerChars s.toList)

end Conveyor.Text
