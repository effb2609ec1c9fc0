import Conveyor.Dict
import Conveyor.Record
import Conveyor.Settings.Numeral
import Conveyor.Text.Split

/-!
# Reading settings from the environment

Each part of the program reads its settings under a stem of its own, as in `UGC_WORKERS`. A variable
that is unset or blank leaves a setting at its default. So does one whose text is no value of the
wanted kind, but that is worth a warning, which names the variable and quotes its text as it is.

A reading is a value together with its warnings; readings follow each other in the `Reading` monad,
whose only effect is to gather the warnings in order.
-/

namespace Conveyor.Settings

/-- The variables that are set. -/
abbrev Environment := Dict String

/-- A warning about a variable with an unusable text. -/
structure Warning where
  /-- The full name of the variable. -/
  variableName : String
  /-- Its text, untrimmed. -/
  text : String
  /-- Why the text is no value. -/
  fault : Misreading
  deriving DecidableEq

/-- The record of a warning. -/
def Warning.record (w : Warning) : Record :=
  .warning "Invalid configuration value, using default"
    [("var", w.variableName), ("value", w.text), ("error", w.fault.message)]

/-- A value and the warnings of reading it. -/
structure Reading (α : Type) where
  /-- The value. -/
  value : α
  /-- The warnings, in order. -/
  warnings : List Warning := []

namespace Reading

instance : Monad Reading where
  pure a := { value := a }
  bind r f :=
    let s := f r.value
    { value := s.value, warnings := r.warnings ++ s.warnings }

end Reading

/-- Reads variables whose names start with a stem. -/
structure Loader where
  /-- What stands before every key: empty, or a text that ends in an underscore. -/
  stem : String

namespace Loader

/-- The loader for a stem, to which an underscore is added unless it is empty or ends in one. -/
def forStem (stem : String) : Loader :=
  match stem.toList.getLast? with
  | none => ⟨stem⟩
  | some c => if c = '_' then ⟨stem⟩ else ⟨stem ++ "_"⟩

variable (l : Loader) (env : Environment)

/-- The full name of the variable for a key. -/
def variableName (key : String) : String :=
  l.stem ++ key

/-- The text of a variable as it is, unless it is unset or blank. -/
def text? (key : String) : Option String :=
  (env.get? (l.variableName key)).filter fun s ↦ !Text.isBlankText s

/-- The text of a variable, or the default. -/
def text (key : String) (default : String) : String :=
  (l.text? env key).getD default

/-- The parts of a variable with commas, or those of the default. -/
def list (key : String) (default : String) : List String :=
  Text.splitList (l.text env key default)

/-- The value of a variable whose trimmed characters are read as a value, or the default. -/
def read {α : Type} (parse : List Char → Except Misreading α) (key : String) (default : α) :
    Reading α :=
  match l.text? env key with
  | none => { value := default }
  | some s =>
    match parse (Text.trimChars s.toList) with
    | .ok a => { value := a }
    | .error fault => { value := default, warnings := [⟨l.variableName key, s, fault⟩] }

/-- The number of a range that a variable holds, or the default. -/
def number (r : Range) (key : String) (default : Int) : Reading Int :=
  l.read env r.read key default

/-- The number without sign that a variable holds, or the default. -/
def natural (r : Range) (key : String) (default : Nat) : Reading Nat :=
  l.read env (fun cs ↦ (r.read cs).map Int.toNat) key default

/-- The truth value that a variable holds, or the default. -/
def bool (key : String) (default : Bool) : Reading Bool :=
  l.read env readBool key default

end Loader

end Conveyor.Settings
