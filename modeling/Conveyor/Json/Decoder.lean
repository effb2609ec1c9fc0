import Conveyor.Dict
import Conveyor.Json.Node

/-!
# Decoding JSON

A decoder takes a tree and yields a value or the reason of a `Refusal`. Of the faults of a text the
first from the left decides the reason: the place where the text breaks makes it *malformed*, a whole
value of the wrong kind, a missing or a repeated field makes it *mismatched*.

A record is decoded into a *draft*, which holds what the text says about each field so far. Its two
forms, an object and an array with the fields in order, fill the same draft; which fields may be
missing is asked of the finished draft, at the place of the closing mark.
-/

namespace Conveyor.Json

/-- Why a text was refused. -/
inductive Refusal where
  /-- The text is not JSON, or a number in it is too great. -/
  | malformed
  /-- The text says something that the value wanted cannot be. -/
  | mismatched
  deriving DecidableEq, Repr

/-- Makes a value of the tree of a text. -/
abbrev Decoder (α : Type) := Node → Except Refusal α

namespace Node

/-- Why a value cannot stand where a value of another kind is wanted. It is still read to its end if
it is a scalar, so a fault inside it comes first; an array or object is refused at its first mark. -/
def refusal : Node → Refusal
  | broken => .malformed
  | number none => .malformed
  | string none => .malformed
  | _ => .mismatched

end Node

namespace Decoder

variable {α β σ : Type}

/-- What a decoder makes of a value, turned into something else. -/
def map (f : α → β) (d : Decoder α) : Decoder β := fun n ↦ (d n).map f

/-- A string. -/
def text : Decoder String
  | .string (some s) => .ok s
  | n => .error n.refusal

/-- A number as a double. -/
def float : Decoder Float
  | .number (some n) => .ok n.toFloat
  | n => .error n.refusal

/-- A whole number below 2⁶⁴. -/
def natural : Decoder Nat
  | .number (some (.natural n)) => .ok n
  | n => .error n.refusal

/-- A value or `null`. -/
def optional (d : Decoder α) : Decoder (Option α)
  | .null => .ok none
  | n => (d n).map some

/-- The value that a partial function makes of a text. -/
def known (f : String → Option α) (s : String) : Except Refusal α :=
  match f s with
  | some a => .ok a
  | none => .error .mismatched

/-- A string that a partial function makes a value of. -/
def ofText? (f : String → Option α) : Decoder α := fun n ↦ do
  known f (← text n)

/-- The key of a member, which must be there. -/
def key : Option String → Except Refusal String
  | some k => .ok k
  | none => .error .malformed

/-- Requires that a container was read to its closing mark. -/
def closing (closed : Bool) (a : α) : Except Refusal α :=
  if closed then .ok a else .error .malformed

/-- One member of a map of texts. -/
def fieldsMember (d : Dict String) (member : Option String × Node) : Except Refusal (Dict String) := do
  let k ← key member.1
  let v ← text member.2
  return d.insert k v

/-- An object with strings as values. Of a repeated key the last value counts. -/
def fields : Decoder (Dict String)
  | .object members closed => do closing closed (← members.foldlM fieldsMember .empty)
  | n => .error n.refusal

/-! ### Records -/

/-- One field of a record whose draft has the type `σ`. -/
structure Field (σ : Type) where
  /-- The key of the field in an object. -/
  name : String
  /-- The draft has a value for the field. -/
  isSet : σ → Bool
  /-- Takes the value of the field into the draft. -/
  set : Node → σ → Except Refusal σ

/-- A field with a decoder for its value and its place in the draft. -/
def Field.of (name : String) (get : σ → Option α) (put : σ → α → σ) (d : Decoder α) : Field σ where
  name := name
  isSet s := (get s).isSome
  set n s := (d n).map (put s)

/-- Takes one member into a draft: a key that names no field is passed over with its value, and a
field must not come twice. -/
def readMember (fs : List (Field σ)) (draft : σ) (member : Option String × Node) : Except Refusal σ := do
  let k ← key member.1
  match fs.find? fun f ↦ f.name == k with
  -- A field that comes again is refused at its key, whatever follows.
  | some f => if f.isSet draft then .error .mismatched else f.set member.2 draft
  | none => closing member.2.isWhole draft

/-- Takes the elements of an array into a draft, field by field. The array may be shorter than the
list of fields but not longer. -/
def readElements (closed : Bool) : List (Field σ) → List Node → σ → Except Refusal σ
  | _, [], draft => closing closed draft
  | [], _ :: _, _ => .error .malformed
  | f :: fs, n :: ns, draft => do readElements closed fs ns (← f.set n draft)

/-- The draft of a record in either form. -/
def record (fs : List (Field σ)) (start : σ) : Decoder σ
  | .object members closed => do closing closed (← members.foldlM (readMember fs) start)
  | .array elements closed => readElements closed fs elements start
  | n => .error n.refusal

/-- The value of a field that must be present. -/
def required (v : Option α) : Except Refusal α :=
  match v with
  | some a => .ok a
  | none => .error .mismatched

/-! ### Enumerations -/

/-- One of several names, as a string or as an object whose only key is the name and whose value is
`null`. -/
def name (f : String → Option α) : Decoder α
  | .string s => ofText? f (.string s)
  | .object ((k, v) :: rest) closed => do
    let a ← known f (← key k)
    match v with
    | .null => if rest.isEmpty then closing closed a else .error .malformed
    | v => .error v.refusal
  | _ => .error .malformed

end Decoder

namespace Document

variable {α : Type}

/-- Decodes the value of a document that holds nothing else. -/
def decode (d : Decoder α) (doc : Document) : Except Refusal α := do
  Decoder.closing doc.clean (← d doc.root)

/-- What a decoder makes of a document is turned into something else. -/
theorem decode_map_eq_ok_iff {β : Type} {f : α → β} {d : Decoder α} {doc : Document} {b : β} :
    doc.decode (d.map f) = .ok b ↔ ∃ a, doc.decode d = .ok a ∧ f a = b := by
  have hmap : doc.decode (d.map f) = (doc.decode d).map f := by
    unfold decode Decoder.map Decoder.closing
    cases d doc.root with
    | error why => rfl
    | ok a => cases doc.clean <;> rfl
  rw [hmap]
  cases doc.decode d <;> simp [Except.map]

end Document

end Conveyor.Json
