import Conveyor.Decimal.Digits
import Conveyor.Decimal.Shortest
import Conveyor.Dict

/-!
# Writing JSON

The values that the program answers with, and their text without any gaps. A double is written with
its fewest digits, positionally from `1e-5` up to `1e16` and with an exponent outside, and always
shows that it is no whole number (`1.0`, `1e16`); one that is no finite number is written as `null`.
In a string the quote, the backslash and the control characters are escaped and nothing else is.
-/

namespace Conveyor.Json

open Decimal

/-- A value to be written. -/
inductive Value where
  /-- The value `null`. -/
  | null
  /-- A string. -/
  | text (s : String)
  /-- A whole number. -/
  | natural (n : Nat)
  /-- A double. -/
  | float (x : Float)
  /-- An array. -/
  | array (elements : List Value)
  /-- An object with its members in the order in which they are written. -/
  | object (members : List (String × Value))
  deriving Inhabited

namespace Value

/-- A map of texts as an object, in key order. -/
def ofFields (d : Dict String) : Value :=
  object (d.toList.map fun e ↦ (e.1, text e.2))

/-- A value that may be absent, written as `null` then. -/
def ofOption {α : Type} (f : α → Value) : Option α → Value
  | some a => f a
  | none => null

end Value

/-! ### Numbers -/

/-- The text of a decimal: with a point if it is at least `1e-5` and below `1e16`, with an exponent
otherwise. -/
def writeScientific (x : Scientific) : List Char :=
  let ds := digits x.digits
  let point : Int := ds.length + x.exponent
  if 0 ≤ x.exponent && point ≤ 16 then ds ++ List.replicate x.exponent.toNat '0' ++ ['.', '0']
  else if 0 < point && point ≤ 16 then ds.take point.toNat ++ '.' :: ds.drop point.toNat
  else if -5 < point && point ≤ 0 then ['0', '.'] ++ List.replicate (-point).toNat '0' ++ ds
  else
    let exponent := point - 1
    let mark := (if exponent < 0 then ['e', '-'] else ['e']) ++ digits exponent.natAbs
    match ds with
    | [] => mark
    | [d] => d :: mark
    | d :: rest => d :: '.' :: rest ++ mark

/-- The text of a double. -/
def writeFloat (x : Float) : List Char :=
  let sign := if x.toBits.toNat < Nat.pow 2 63 then [] else ['-']
  match Binary.ofFloat? x with
  | some b => sign ++ writeScientific b.shortest
  | none => if x == 0 then sign ++ ['0', '.', '0'] else ['n', 'u', 'l', 'l']

/-! ### Strings -/

/-- Two digits in base sixteen. -/
def hexPair (n : Nat) : List Char :=
  [Nat.digitChar (n / 16), Nat.digitChar (n % 16)]

/-- How one character is written inside a string. -/
def writeChar (c : Char) : List Char :=
  if c = '"' then ['\\', '"']
  else if c = '\\' then ['\\', '\\']
  else if c = '\x08' then ['\\', 'b']
  else if c = '\x0c' then ['\\', 'f']
  else if c = '\n' then ['\\', 'n']
  else if c = '\r' then ['\\', 'r']
  else if c = '\t' then ['\\', 't']
  else if c.toNat < 0x20 then ['\\', 'u', '0', '0'] ++ hexPair c.toNat
  else [c]

/-- A string between its quotes. -/
def writeString (s : String) : List Char :=
  '"' :: (s.toList.flatMap writeChar ++ ['"'])

/-! ### Values -/

namespace Value

mutual

/-- The characters of a written value. -/
def write : Value → List Char
  | null => ['n', 'u', 'l', 'l']
  | text s => writeString s
  | natural n => digits n
  | float x => writeFloat x
  | array elements => '[' :: (writeElements elements ++ [']'])
  | object members => '{' :: (writeMembers members ++ ['}'])

/-- The elements of an array, with commas between them. -/
def writeElements : List Value → List Char
  | [] => []
  | [v] => v.write
  | v :: vs => v.write ++ ',' :: writeElements vs

/-- The members of an object, with commas between them. -/
def writeMembers : List (String × Value) → List Char
  | [] => []
  | [(k, v)] => writeString k ++ ':' :: v.write
  | (k, v) :: rest => writeString k ++ ':' :: v.write ++ ',' :: writeMembers rest

end

/-- The text of a value. -/
def render (v : Value) : String :=
  String.ofList v.write

end Value

end Conveyor.Json
