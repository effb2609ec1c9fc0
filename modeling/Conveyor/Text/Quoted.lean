import Conveyor.Dict
import Conveyor.Text.EscapeTable

/-!
# Quoted text

How a record shows client text unambiguously on one line: between double quotes, with a backslash
before a double quote and a backslash, the short escapes `\n`, `\r`, `\t` and `\0`, and every other
character that does not stand for itself on a page as `\u` and its code point in hexadecimal digits
between braces. A single quote stays as it is.

`quoteFields` shows a whole map of texts: its entries in key order, between braces.
-/

namespace Conveyor.Text

/-- The digits of a code point in base sixteen, in small letters and without leading zeros. -/
def hexDigits (n : Nat) : List Char :=
  Nat.toDigits 16 n

/-- The character is shown by its code point: it is a control, a format, a separator other than the
space, no assigned character, a filler that shows nothing, or one that attaches to the character
before it. -/
def isEscaped (c : Char) : Bool :=
  let n := c.toNat
  if n < 0x7F then n < 0x20 else escapeRanges.contains n

/-- How one character is written inside quotes. -/
def quoteChar (c : Char) : List Char :=
  if c = '"' then ['\\', '"']
  else if c = '\\' then ['\\', '\\']
  else if c = '\n' then ['\\', 'n']
  else if c = '\r' then ['\\', 'r']
  else if c = '\t' then ['\\', 't']
  else if c = '\x00' then ['\\', '0']
  else if isEscaped c then ['\\', 'u', '{'] ++ hexDigits c.toNat ++ ['}']
  else [c]

/-- A text between double quotes. -/
def quoteChars (cs : List Char) : List Char :=
  '"' :: (cs.flatMap quoteChar ++ ['"'])

/-- One entry of a map: the quoted key, a colon and a space, the quoted value. -/
def quoteEntry (e : String × String) : List Char :=
  quoteChars e.1.toList ++ [':', ' '] ++ quoteChars e.2.toList

/-- The entries of a map with a comma and a space between them. -/
def quoteEntries : List (String × String) → List Char
  | [] => []
  | [e] => quoteEntry e
  | e :: es => quoteEntry e ++ [',', ' '] ++ quoteEntries es

/-- A map of texts on one line, its entries in key order between braces. -/
def quoteFields (d : Dict String) : String :=
  String.ofList ('{' :: (quoteEntries d.toList ++ ['}']))

end Conveyor.Text
