import Conveyor.Json.Number
import Conveyor.Json.Symbol

/-!
# The lexemes of JSON

The smallest meaningful pieces of a JSON text: the six marks, the three names, numbers and strings.
What cannot be such a piece is a `broken` lexeme.

Two things are told apart on purpose. A string is *well written* when it ends and all its escapes
have the right form; it *has a value* when its escapes and bytes also make up characters. Likewise a
number may be well written and yet greater than every double. Passing over a value asks only for the
first, using it asks for both; so the value is an `Option` inside the lexeme.
-/

namespace Conveyor.Json

/-- A piece of a JSON text. -/
inductive Lexeme where
  /-- The mark `[`. -/
  | openArray
  /-- The mark `]`. -/
  | closeArray
  /-- The mark `{`. -/
  | openObject
  /-- The mark `}`. -/
  | closeObject
  /-- The mark `,`. -/
  | comma
  /-- The mark `:`. -/
  | colon
  /-- The name `null`. -/
  | null
  /-- The name `true` or `false`. -/
  | bool (b : Bool)
  /-- A number, without a value if it is greater than every double. -/
  | number (n : Option Number)
  /-- A string, without a value if its content is no sequence of characters. -/
  | string (s : Option String)
  /-- Something that is no lexeme. -/
  | broken

/-! ### Numbers -/

/-- Takes the digits in front, after those in `done`, which are in reverse. -/
def spanDigits (done : List Char) : List Symbol → List Char × List Symbol
  | .char c :: rest => if c.isDigit then spanDigits (c :: done) rest else (done.reverse, .char c :: rest)
  | rest => (done.reverse, rest)

/-- The digits may stand before the point: there is one at least, and no zero in front of others. -/
def isWhole : List Char → Bool
  | [] => false
  | [_] => true
  | d :: _ => d != '0'

/-- The digits before the point: a zero alone, or digits that do not start with a zero. -/
def scanWhole (s : List Symbol) : Option (List Char × List Symbol) :=
  let r := spanDigits [] s
  if isWhole r.1 then some r else none

/-- An optional point with the digits after it, at least one. -/
def scanFraction : List Symbol → Option (Option (List Char) × List Symbol)
  | .char '.' :: rest =>
    match spanDigits [] rest with
    | ([], _) => none
    | (ds, rest) => some (some ds, rest)
  | rest => some (none, rest)

/-- The sign and the digits of an exponent. -/
def scanExponent (s : List Symbol) : Option (Option Power × List Symbol) :=
  let (negated, s) : Bool × List Symbol :=
    match s with
    | .char '-' :: rest => (true, rest)
    | .char '+' :: rest => (false, rest)
    | rest => (false, rest)
  match spanDigits [] s with
  | ([], _) => none
  | (ds, rest) => some (some ⟨negated, ds⟩, rest)

/-- An optional power of ten. -/
def scanPower : List Symbol → Option (Option Power × List Symbol)
  | .char 'e' :: rest => scanExponent rest
  | .char 'E' :: rest => scanExponent rest
  | rest => some (none, rest)

/-- A number from its first digit on. -/
def scanNumber (negated : Bool) (s : List Symbol) : Option (NumberText × List Symbol) := do
  let (whole, s) ← scanWhole s
  let (fraction, s) ← scanFraction s
  let (power, s) ← scanPower s
  return (⟨negated, whole, fraction, power⟩, s)

/-! ### Strings -/

/-- The content of a string as far as it has been read. -/
structure Content where
  /-- The characters so far, in reverse. -/
  done : List Char := []
  /-- Everything so far was a character. -/
  sound : Bool := true
  /-- A leading surrogate that waits for its trailing one. -/
  leading : Option Nat := none

namespace Content

/-- The content with something in it that is no character. -/
def spoil (s : Content) : Content :=
  { s with sound := false, leading := none }

/-- The content with one more character. -/
def push (s : Content) (c : Char) : Content :=
  { done := c :: s.done, sound := s.sound && s.leading.isNone, leading := none }

/-- The content with one more code unit of UTF-16: a character by itself, or one of a pair of
surrogates that make up a character together. -/
def pushUnit (s : Content) (unit : Nat) : Content :=
  if 0xD800 ≤ unit && unit < 0xDC00 then
    { s with sound := s.sound && s.leading.isNone, leading := some unit }
  else if 0xDC00 ≤ unit && unit < 0xE000 then
    match s.leading with
    | some high =>
      { s with
        done := Char.ofNat (0x10000 + (high - 0xD800) * 0x400 + (unit - 0xDC00)) :: s.done
        leading := none }
    | none => s.spoil
  else s.push (Char.ofNat unit)

/-- The text, if the content is made of characters. -/
def text? (s : Content) : Option String :=
  if s.sound && s.leading.isNone then some (String.ofList s.done.reverse) else none

end Content

/-- The value of a digit in base sixteen. -/
def hexValue? (c : Char) : Option Nat :=
  if c.isDigit then some (c.toNat - '0'.toNat)
  else if 'a' ≤ c && c ≤ 'f' then some (c.toNat - 'a'.toNat + 10)
  else if 'A' ≤ c && c ≤ 'F' then some (c.toNat - 'A'.toNat + 10)
  else none

/-- The number that four digits in base sixteen denote. -/
def hexUnit? (a b c d : Char) : Option Nat := do
  let a ← hexValue? a
  let b ← hexValue? b
  let c ← hexValue? c
  let d ← hexValue? d
  return ((a * 16 + b) * 16 + c) * 16 + d

/-- The character that a short escape stands for. -/
def shortEscape? (c : Char) : Option Char :=
  if c = '"' then some '"'
  else if c = '\\' then some '\\'
  else if c = '/' then some '/'
  else if c = 'b' then some '\x08'
  else if c = 'f' then some '\x0c'
  else if c = 'n' then some '\n'
  else if c = 'r' then some '\r'
  else if c = 't' then some '\t'
  else none

/-- The rest of a string whose content so far is given, up to its closing quote. -/
def scanString (content : Content) : List Symbol → Option (Option String × List Symbol)
  | [] => none
  | .stray :: rest => scanString content.spoil rest
  | .char c :: rest =>
    if c = '"' then some (content.text?, rest)
    else if c = '\\' then
      match rest with
      | .char 'u' :: .char a :: .char b :: .char c :: .char d :: rest =>
        match hexUnit? a b c d with
        | some unit => scanString (content.pushUnit unit) rest
        | none => none
      | .char e :: rest =>
        match shortEscape? e with
        | some c => scanString (content.push c) rest
        | none => none
      -- The text ends after the backslash, or a stray byte follows it.
      | _ => none
    else if c.toNat < 0x20 then none
    else scanString (content.push c) rest

/-! ### Lexemes -/

/-- Blank symbols between lexemes: the space, the tab and the two line breaks. -/
def isGap : Symbol → Bool
  | .char c => c = ' ' || c = '\t' || c = '\n' || c = '\r'
  | .stray => false

/-- The lexeme that starts with a given character, and what follows it. A broken lexeme ends after
its first character. -/
def lexemeFrom (c : Char) (rest : List Symbol) : Lexeme × List Symbol :=
  if c = '[' then (.openArray, rest)
  else if c = ']' then (.closeArray, rest)
  else if c = '{' then (.openObject, rest)
  else if c = '}' then (.closeObject, rest)
  else if c = ',' then (.comma, rest)
  else if c = ':' then (.colon, rest)
  else if c = '"' then
    match scanString {} rest with
    | some (s, rest) => (.string s, rest)
    | none => (.broken, rest)
  else if c = '-' then
    match scanNumber true rest with
    | some (t, rest) => (.number t.value?, rest)
    | none => (.broken, rest)
  else if c.isDigit then
    match scanNumber false (.char c :: rest) with
    | some (t, rest) => (.number t.value?, rest)
    | none => (.broken, rest)
  else
    match c, rest with
    | 'n', .char 'u' :: .char 'l' :: .char 'l' :: rest => (.null, rest)
    | 't', .char 'r' :: .char 'u' :: .char 'e' :: rest => (.bool true, rest)
    | 'f', .char 'a' :: .char 'l' :: .char 's' :: .char 'e' :: rest => (.bool false, rest)
    | _, _ => (.broken, rest)

/-- The first lexeme of a text and what follows it; none if only gaps are left. -/
def nextLexeme? (s : List Symbol) : Option (Lexeme × List Symbol) :=
  match s.dropWhile isGap with
  | [] => none
  | .stray :: rest => some (.broken, rest)
  | .char c :: rest => some (lexemeFrom c rest)

/-! ### What follows a lexeme is shorter -/

theorem length_spanDigits (done : List Char) (s : List Symbol) :
    (spanDigits done s).1.length + (spanDigits done s).2.length = done.length + s.length := by
  induction s generalizing done with
  | nil => simp [spanDigits]
  | cons x s ih =>
    cases x with
    | stray => simp [spanDigits]
    | char c =>
      unfold spanDigits
      split
      · rw [ih]; simp only [List.length_cons]; omega
      · simp

theorem length_pos_of_isWhole {ds : List Char} (h : isWhole ds = true) : 0 < ds.length := by
  cases ds with
  | nil => simp [isWhole] at h
  | cons d ds => simp

theorem length_of_scanWhole {s rest : List Symbol} {ds : List Char}
    (h : scanWhole s = some (ds, rest)) : rest.length < s.length := by
  have key := length_spanDigits [] s
  unfold scanWhole at h
  simp only at h
  split at h
  · rename_i hw
    have := length_pos_of_isWhole hw
    simp only [Option.some.injEq] at h
    rw [h] at this key
    simp only [List.length_nil] at key this
    omega
  · cases h

theorem length_of_scanFraction {s rest : List Symbol} {f : Option (List Char)}
    (h : scanFraction s = some (f, rest)) : rest.length ≤ s.length := by
  unfold scanFraction at h
  split at h
  · rename_i t
    have key := length_spanDigits [] t
    split at h
    · cases h
    · rename_i heq; rw [heq] at key; cases h; simp at key ⊢; omega
  · cases h; exact Nat.le_refl _

theorem length_of_scanExponent {s rest : List Symbol} {p : Option Power}
    (h : scanExponent s = some (p, rest)) : rest.length ≤ s.length := by
  unfold scanExponent at h
  split at h
  rename_i negated t ht
  have hle : t.length ≤ s.length := by
    split at ht <;> cases ht <;> simp
  have key := length_spanDigits [] t
  split at h
  · cases h
  · rename_i heq; rw [heq] at key; cases h; simp at key; omega

theorem length_of_scanPower {s rest : List Symbol} {p : Option Power}
    (h : scanPower s = some (p, rest)) : rest.length ≤ s.length := by
  unfold scanPower at h
  split at h
  · have := length_of_scanExponent h; simp; omega
  · have := length_of_scanExponent h; simp; omega
  · cases h; exact Nat.le_refl _

theorem length_of_scanNumber {negated : Bool} {s rest : List Symbol} {t : NumberText}
    (h : scanNumber negated s = some (t, rest)) : rest.length < s.length := by
  simp only [scanNumber, Option.bind_eq_bind, Option.bind_eq_some_iff, Option.pure_def,
    Option.some.injEq, Prod.mk.injEq, Prod.exists] at h
  obtain ⟨w, s₁, h₁, f, s₂, h₂, p, s₃, h₃, -, rfl⟩ := h
  have := length_of_scanWhole h₁
  have := length_of_scanFraction h₂
  have := length_of_scanPower h₃
  omega

theorem length_of_scanString {content : Content} {s rest : List Symbol} {v : Option String}
    (h : scanString content s = some (v, rest)) : rest.length < s.length := by
  fun_induction scanString content s <;> simp_all <;> omega

theorem length_lexemeFrom (c : Char) (s : List Symbol) : (lexemeFrom c s).2.length ≤ s.length := by
  unfold lexemeFrom
  repeat' split
  all_goals try exact Nat.le_refl _
  · rename_i h; exact Nat.le_of_lt (length_of_scanString h)
  · rename_i h; exact Nat.le_of_lt (length_of_scanNumber h)
  · rename_i h; have := length_of_scanNumber h; simp at this ⊢; omega
  all_goals simp; omega

theorem length_of_nextLexeme? {s rest : List Symbol} {t : Lexeme}
    (h : nextLexeme? s = some (t, rest)) : rest.length < s.length := by
  have key : (s.dropWhile isGap).length ≤ s.length := (List.dropWhile_suffix _).length_le
  unfold nextLexeme? at h
  split at h
  · cases h
  · rename_i heq; cases h; rw [heq] at key; simp at key; omega
  · rename_i c r heq
    have := length_lexemeFrom c r
    rw [heq] at key
    simp only [Option.some.injEq] at h
    rw [h] at this
    simp at key this
    omega

end Conveyor.Json
