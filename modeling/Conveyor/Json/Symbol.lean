/-!
# The symbols of a JSON text

A JSON text arrives either as a text or as bytes, and bytes need not be UTF-8. A `Symbol` is what a
reader sees at one place: a character, or a byte that belongs to none. A byte in the ASCII range is
always the character it stands for, whatever surrounds it, so quotes and brackets are recognised
next to stray bytes as well.
-/

namespace Conveyor.Json

/-- A character of a text, or a byte that is part of no character. -/
inductive Symbol where
  /-- A character. -/
  | char (c : Char)
  /-- A byte that does not belong to a well-formed character. -/
  | stray
  deriving DecidableEq, Inhabited

namespace Symbol

/-- The symbols of a text: its characters. -/
def ofText (s : String) : List Symbol :=
  s.toList.map char

/-- The symbols of the bytes from the place `i` on; `done` is what came before, in reverse. -/
def ofBytesFrom (bytes : ByteArray) (i : Nat) (done : List Symbol) : List Symbol :=
  if i < bytes.size then
    match bytes.utf8DecodeChar? i with
    | some c => ofBytesFrom bytes (i + c.utf8Size) (char c :: done)
    | none => ofBytesFrom bytes (i + 1) (stray :: done)
  else done.reverse
termination_by bytes.size - i
decreasing_by
  · have := c.utf8Size_pos; omega
  · omega

/-- The symbols of a sequence of bytes: the characters that it encodes in UTF-8, and a stray symbol
for each byte that is part of none. -/
def ofBytes (bytes : ByteArray) : List Symbol :=
  ofBytesFrom bytes 0 []

end Symbol

end Conveyor.Json
