import Conveyor.Text.Blank

/-!
# Severity levels

The four levels of an event, from the least to the most severe. A level is read from its name in any
case of the ASCII letters, blanks around it not counting; what names no level is read as `info`.
-/

namespace Conveyor

/-- How severe an event is. -/
inductive Level where
  /-- Of interest while looking for a fault. -/
  | debug
  /-- Normal operation. -/
  | info
  /-- Unexpected, but handled. -/
  | warn
  /-- A failure. -/
  | error
  deriving DecidableEq, Inhabited, Repr

namespace Level

/-- The place of a level in the order of severity. -/
def rank : Level → Nat
  | debug => 0
  | info => 1
  | warn => 2
  | error => 3

instance : LT Level := ⟨fun a b ↦ a.rank < b.rank⟩

instance : LE Level := ⟨fun a b ↦ a.rank ≤ b.rank⟩

instance (a b : Level) : Decidable (a < b) := inferInstanceAs (Decidable (a.rank < b.rank))

instance (a b : Level) : Decidable (a ≤ b) := inferInstanceAs (Decidable (a.rank ≤ b.rank))

/-- The name of a level, in capitals. -/
def name : Level → String
  | debug => "DEBUG"
  | info => "INFO"
  | warn => "WARN"
  | error => "ERROR"

/-- The level of a name written with ASCII letters in any case; `info` if there is none. -/
def parse (s : String) : Level :=
  let upper := (Text.trimChars s.toList).map Char.toUpper
  if upper = "DEBUG".toList then debug
  else if upper = "WARN".toList then warn
  else if upper = "ERROR".toList then error
  else info

/-- Whether the first level is less severe than, as severe as or more severe than the second. -/
def order (a b : Level) : Ordering :=
  compare a.rank b.rank

theorem parse_name (l : Level) : parse l.name = l := by
  cases l <;> decide

end Level

end Conveyor
