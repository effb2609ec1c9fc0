import Conveyor.Proofs.Dict
import Conveyor.Proofs.Text.Quoted
import Conveyor.Sink.Rack

/-!
# Fields in the log

The sink that writes events to the log shows the fields of an event as one text. That text tells all
of the fields, and nothing else: two events have the same text if and only if they have the same
fields, and of fields that were attached one after the other it tells the last value of each key,
whatever the order was. It is on one line and has no controls in it. The main statement is
`fields_told_apart`.

What is behind it is that a map is told by how it is shown (`Text.quoteFields_inj`), and by what its
look-ups say (`Dict.ext_get?`).
-/

namespace Conveyor

/-- The text of the fields in a record of an event. -/
def Record.fields? (r : Record) : Option String :=
  r.details.lookup "fields"

/-- The event with more fields, attached one after the other. -/
def Event.attach (e : Event) (ps : List (String × String)) : Event :=
  ps.foldl (fun e p ↦ e.withField p.1 p.2) e

namespace Sink.Stdout

variable {e f : Event} {ps qs : List (String × String)}

/-- The texts of fields in the records that an event leaves in the log. -/
def fieldTexts (e : Event) : List (Option String) :=
  (Member.stdout.records e).map Record.fields?

theorem fieldTexts_eq (e : Event) : fieldTexts e = [some (Text.quoteFields e.fields)] := rfl

/-- The text tells the fields, and nothing else. -/
theorem fieldTexts_eq_iff : fieldTexts e = fieldTexts f ↔ e.fields = f.fields := by
  rw [fieldTexts_eq, fieldTexts_eq, List.singleton_inj, Option.some_inj]
  exact ⟨Text.quoteFields_inj, congrArg Text.quoteFields⟩

/-- Fields are attached to an event one after the other as they are put into a map. -/
theorem fields_attach (e : Event) (ps : List (String × String)) :
    (e.attach ps).fields = ps.foldl (fun d p ↦ d.insert p.1 p.2) e.fields := by
  induction ps generalizing e with
  | nil => rfl
  | cons p ps ih => exact ih (e.withField p.1 p.2)

/-- What became of the fields of two events can be told by the last value of each key. -/
theorem fieldTexts_attach_eq_iff :
    fieldTexts (e.attach ps) = fieldTexts (f.attach qs) ↔
      ∀ key, (ps.reverse.lookup key).or (e.fields.get? key) =
        (qs.reverse.lookup key).or (f.fields.get? key) := by
  -- The last of several values stands first when the order is reversed.
  have hget (e : Event) (ps : List (String × String)) (key : String) :
      (e.attach ps).fields.get? key = (ps.reverse.lookup key).or (e.fields.get? key) := by
    rw [fields_attach, Dict.get?_foldl_insert]
  rw [fieldTexts_eq_iff]
  constructor
  · intro h key
    rw [← hget, h, hget]
  · intro h
    refine Dict.ext_get? fun key ↦ ?_
    rw [hget, h, hget]

/-- What the log tells of the fields of two events, and of fields that are attached to them. -/
structure FieldsTold (e f : Event) (ps qs : List (String × String)) : Prop where
  /-- An event leaves one text of its fields, without controls and line breaks. -/
  plain : ∃ text, fieldTexts e = [some text] ∧
    ∀ c ∈ text.toList, Text.isControl c = false ∧ Text.isLineBreak c = false
  /-- The texts of two events are the same just when their fields are. -/
  apart : fieldTexts e = fieldTexts f ↔ e.fields = f.fields
  /-- After fields were attached the texts are the same just when every key was given the same value
  at last, or was given none and had the same before. -/
  last : fieldTexts (e.attach ps) = fieldTexts (f.attach qs) ↔
    ∀ key, (ps.reverse.lookup key).or (e.fields.get? key) =
      (qs.reverse.lookup key).or (f.fields.get? key)
  /-- Fields with keys of their own may be attached in any order. -/
  perm : ps.Perm qs → (ps.map Prod.fst).Nodup →
    fieldTexts (e.attach ps) = fieldTexts (e.attach qs)

/-- **Fields are not blurred.** Whatever the fields of events are and in whatever order they were
attached, the text of them in the log is on one line and tells them from all others. -/
theorem fields_told_apart (e f : Event) (ps qs : List (String × String)) :
    FieldsTold e f ps qs where
  plain := ⟨_, fieldTexts_eq e, fun _ hc ↦
    Text.isPlain_of_isEscaped_eq_false (Text.isEscaped_of_mem_quoteFields hc)⟩
  apart := fieldTexts_eq_iff
  last := fieldTexts_attach_eq_iff
  perm h hnodup := fieldTexts_attach_eq_iff.2 fun key ↦ by
    rw [Dict.lookup_reverse_perm h hnodup]

/-- A value that looks like the end of its entry and a further one. -/
example : Text.quoteFields (.ofList [("b", "1\n"), ("a", "\", \"b\": \"2")]) =
    "\x7b\"a\": \"\\\", \\\"b\\\": \\\"2\", \"b\": \"1\\n\"\x7d" := by decide +kernel

end Sink.Stdout

end Conveyor
